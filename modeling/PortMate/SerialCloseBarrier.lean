import Mathlib.Data.List.Nodup
import PortMate.SerialWorkers

namespace PortMate

open List SerialWorkerRegistry Nat

section Counts

variable {κ : Type} [DecidableEq κ]

theorem sum_filter_lookup {entries : List (κ × Nat)} (distinct : (entries.map (·.1)).Nodup) (key : κ) :
    (entries.map (·.2)).sum = (entries.lookup key).getD 0 +
      ((entries.filter fun entry => entry.1 ≠ key).map (·.2)).sum := by
  induction entries with
  | nil => rfl
  | cons entry entries ih =>
    obtain ⟨k, count⟩ := entry
    obtain ⟨fresh, rest⟩ := nodup_cons.mp distinct
    rw [map_cons, sum_cons, lookup_cons]
    by_cases here : k = key
    · subst here
      have gone : (entries.filter fun entry => entry.1 ≠ k) = entries := by
        refine filter_eq_self.mpr fun other member => ?_
        have apart : other.1 ≠ k := fun same => fresh (mem_map.mpr ⟨other, member, same⟩)
        simpa using apart
      rw [filter_cons_of_neg (by simp), gone]
      simp
    · rw [filter_cons_of_pos (by simpa using here), map_cons, sum_cons, ih rest,
        beq_false_of_ne (Ne.symm here)]
      dsimp only
      omega

theorem nodup_filter_keys {entries : List (κ × Nat)} (distinct : (entries.map (·.1)).Nodup)
    (key : κ) : ((entries.filter fun entry => entry.1 ≠ key).map (·.1)).Nodup :=
  distinct.sublist (filter_sublist.map _)

theorem nodup_cons_filter {entries : List (κ × Nat)} (distinct : (entries.map (·.1)).Nodup)
    (key : κ) (count : Nat) :
    (((key, count) :: entries.filter fun entry => entry.1 ≠ key).map (·.1)).Nodup := by
  rw [map_cons, nodup_cons]
  refine ⟨?_, nodup_filter_keys distinct key⟩
  intro member
  obtain ⟨entry, kept, same⟩ := mem_map.mp member
  exact absurd same (by simpa using (mem_filter.mp kept).2)

end Counts

def workersOf (workers : List (Nat × String)) (sessionId : String) : Nat :=
  workers.countP fun worker => worker.2 = sessionId

/-- The counters of the registry agree with the guards of the workers. -/
structure WorkerBooks (sessions : SerialSessions) : Prop where
  keys : (sessions.registry.state.activeBySession.map (·.1)).Nodup
  counts : ∀ sessionId, sessions.registry.activeForSession sessionId =
    workersOf sessions.workers sessionId
  total : sessions.registry.state.active =
    (sessions.registry.state.activeBySession.map (·.2)).sum
  ids : (sessions.workers.map (·.1)).Nodup
  recent : ∀ worker ∈ sessions.workers, worker.1 < sessions.nextId

namespace SerialSessions

theorem workersOf_drop {workers : List (Nat × String)} (ids : (workers.map (·.1)).Nodup)
    {worker : Nat} {sessionId : String} (found : workers.lookup worker = some sessionId)
    (other : String) :
    workersOf workers other = (if sessionId = other then 1 else 0) +
      workersOf (workers.filter fun entry => entry.1 ≠ worker) other := by
  induction workers with
  | nil => exact absurd found (by simp)
  | cons entry workers ih =>
    obtain ⟨id, session⟩ := entry
    obtain ⟨fresh, rest⟩ := nodup_cons.mp ids
    by_cases here : id = worker
    · subst here
      rw [lookup_cons_self] at found
      obtain rfl := Option.some.inj found
      have gone : (workers.filter fun entry => entry.1 ≠ id) = workers := by
        refine filter_eq_self.mpr fun other member => ?_
        have apart : other.1 ≠ id := fun same => fresh (mem_map.mpr ⟨other, member, same⟩)
        simpa using apart
      rw [filter_cons_of_neg (by simp), gone]
      unfold workersOf
      rw [countP_cons]
      simp [Nat.add_comm]
    · rw [lookup_cons, beq_false_of_ne (Ne.symm here)] at found
      rw [filter_cons_of_pos (by simpa using here)]
      have left := ih rest found
      unfold workersOf at left ⊢
      rw [countP_cons, countP_cons, left]
      omega

variable {sessions : SerialSessions}

theorem register_spec (sessionId : String) :
    (∃ message, sessions.registry.registerForSession sessionId = .error message ∧
        sessions.register sessionId = sessions) ∨
      (sessions.registry.shuttingDown = false ∧
        sessionId ∉ sessions.registry.state.closingSessions ∧
        sessions.register sessionId =
          { sessions with
            registry.state.active := sessions.registry.state.active + 1
            registry.state.activeBySession :=
              upsertEntry sessionId 0 (· + 1) sessions.registry.state.activeBySession
            workers := (sessions.nextId, sessionId) :: sessions.workers
            nextId := sessions.nextId + 1 }) := by
  unfold register registerForSession registerInner
  cases down : sessions.registry.shuttingDown with
  | true => exact .inl ⟨_, rfl, rfl⟩
  | false =>
    by_cases closing : sessionId ∈ sessions.registry.state.closingSessions
    · exact .inl ⟨_, by simp [closing]; rfl, by simp [closing]⟩
    · exact .inr ⟨rfl, closing, by simp [closing, down]⟩

theorem register_books (books : WorkerBooks sessions) (sessionId : String) :
    WorkerBooks (sessions.register sessionId) := by
  rcases register_spec sessionId with ⟨_, _, same⟩ | ⟨_, _, same⟩
  · rw [same]
    exact books
  · rw [same]
    refine ⟨nodup_cons_filter books.keys _ _, ?_, ?_, ?_, ?_⟩
    · intro other
      have before := books.counts other
      have here := books.counts sessionId
      unfold activeForSession at before here ⊢
      dsimp only
      rw [lookup_upsertEntry]
      unfold workersOf at before here ⊢
      rw [countP_cons]
      by_cases hit : other = sessionId
      · subst hit
        simp [before]
      · simp [hit, Ne.symm hit, before]
    · have sum := sum_filter_lookup books.keys sessionId
      have total := books.total
      dsimp only [upsertEntry]
      rw [map_cons, sum_cons]
      omega
    · rw [map_cons, nodup_cons]
      refine ⟨?_, books.ids⟩
      intro member
      obtain ⟨worker, inside, same⟩ := mem_map.mp member
      have := books.recent worker inside
      omega
    · intro worker member
      rcases mem_cons.mp member with rfl | old
      · exact lt_succ_self _
      · exact lt_succ_of_lt (books.recent worker old)

theorem dropWorker_books (books : WorkerBooks sessions) (worker : Nat) :
    WorkerBooks (sessions.dropWorker worker) := by
  unfold dropWorker
  split
  next => exact books
  next sessionId found =>
    have drop := workersOf_drop books.ids found
    have here : 0 < workersOf sessions.workers sessionId := by
      rw [drop sessionId, if_pos rfl]
      omega
    have count := books.counts sessionId
    unfold activeForSession at count
    have sum := sum_filter_lookup books.keys sessionId
    have total := books.total
    obtain ⟨active, entry⟩ : ∃ active,
        sessions.registry.state.activeBySession.lookup sessionId = some active := by
      cases known : sessions.registry.state.activeBySession.lookup sessionId with
      | none =>
        rw [known, Option.getD_none] at count
        omega
      | some active => exact ⟨active, rfl⟩
    rw [entry, Option.getD_some] at count sum
    have ids := books.ids.sublist
      ((filter_sublist (p := fun entry : Nat × String => decide (entry.1 ≠ worker))).map (·.1))
    have recent : ∀ entry ∈ sessions.workers.filter (fun entry => entry.1 ≠ worker),
        entry.1 < sessions.nextId :=
      fun entry member => books.recent entry (mem_filter.mp member).1
    unfold SerialWorkerRegistry.dropWorker
    simp only [entry]
    by_cases last : active - 1 = 0
    · rw [if_pos last]
      refine ⟨nodup_filter_keys books.keys _, ?_, ?_, ids, recent⟩
      · intro other
        have before := books.counts other
        unfold activeForSession at before ⊢
        dsimp only
        rw [lookup_filter_ne]
        have left := drop other
        by_cases hit : other = sessionId
        · subst hit
          rw [if_pos rfl] at left ⊢
          rw [Option.getD_none]
          omega
        · rw [if_neg hit, before, left, if_neg (Ne.symm hit), Nat.zero_add]
      · dsimp only
        omega
    · rw [if_neg last]
      refine ⟨nodup_cons_filter books.keys _ _, ?_, ?_, ids, recent⟩
      · intro other
        have before := books.counts other
        unfold activeForSession at before ⊢
        dsimp only
        rw [lookup_cons, lookup_filter_ne]
        have left := drop other
        by_cases hit : other = sessionId
        · subst hit
          rw [if_pos rfl] at left
          simp only [BEq.rfl, Option.getD_some]
          omega
        · rw [if_neg (Ne.symm hit), Nat.zero_add] at left
          rw [beq_false_of_ne hit, if_neg hit]
          exact before.trans left
      · dsimp only
        rw [map_cons, sum_cons]
        dsimp only
        omega

theorem books_of_closes (books : WorkerBooks sessions) (closingSessions : List String)
    (shuttingDown : Bool) (closes : List SerialClose) {nextId : Nat}
    (later : sessions.nextId ≤ nextId) :
    WorkerBooks
      { sessions with
        registry.shuttingDown := shuttingDown
        registry.state.closingSessions := closingSessions
        closes, nextId } where
  keys := books.keys
  counts := books.counts
  total := books.total
  ids := books.ids
  recent worker member := Nat.lt_of_lt_of_le (books.recent worker member) later

variable (id : Nat)

theorem observeIdle_spec :
    sessions.observeIdle id = sessions ∨ ∃ close, sessions.close? id = some close ∧
      sessions.registry.activeForSession close.sessionId = 0 ∧
      ∃ phase, sessions.observeIdle id = sessions.setPhase id phase := by
  unfold observeIdle
  split
  next => exact .inl rfl
  next close found =>
    split
    next => exact .inl rfl
    next none =>
      have zero : sessions.registry.activeForSession close.sessionId = 0 := by omega
      split
      · exact .inr ⟨close, found, zero, _, rfl⟩
      · exact .inr ⟨close, found, zero, _, rfl⟩
      · exact .inl rfl

theorem deferUntilIdle_spec (spawned : Bool) :
    sessions.deferUntilIdle id spawned = sessions ∨ ∃ phase, phase ≠ .closing true ∧
      sessions.deferUntilIdle id spawned = sessions.setPhase id phase := by
  unfold deferUntilIdle
  split
  · cases spawned <;> exact .inr ⟨_, by simp, rfl⟩
  · exact .inl rfl

theorem endClose_spec :
    sessions.endClose id = sessions ∨ ∃ close, sessions.close? id = some close ∧
      SerialClosePhase.ends close.phase = true ∧
      sessions.endClose id =
        { sessions with
          registry := sessions.registry.endSessionShutdown close.sessionId
          closes := sessions.closes.filter fun other => other.id ≠ id } := by
  unfold endClose
  split
  next => exact .inl rfl
  next close found =>
    split
    next ends => exact .inr ⟨close, found, ends, rfl⟩
    next => exact .inl rfl

/-- While a guard of a session is alive, or its cleanup is not over, no worker of the session is
registered; and there is none once the guard's wait has ended idle. -/
structure CloseBarrier (sessions : SerialSessions) : Prop where
  refused : ∀ close ∈ sessions.closes,
    ∃ message, sessions.registry.registerForSession close.sessionId = .error message
  idle : ∀ close ∈ sessions.closes, close.phase = .closing true →
    sessions.registry.activeForSession close.sessionId = 0
  total : sessions.registry.state.active =
    (sessions.registry.state.activeBySession.map (·.2)).sum

/-- The flag of every session whose barrier has an owner is set. -/
structure FlagsSet (sessions : SerialSessions) : Prop where
  books : WorkerBooks sessions
  distinct : (sessions.closes.map (·.id)).Nodup
  recent : ∀ close ∈ sessions.closes, close.id < sessions.nextId
  flagged : ∀ close ∈ sessions.closes, sessions.registry.shuttingDown = true ∨
    close.sessionId ∈ sessions.registry.state.closingSessions
  idle : ∀ close ∈ sessions.closes, close.phase = .closing true →
    sessions.registry.activeForSession close.sessionId = 0

theorem FlagsSet.barrier (flags : FlagsSet sessions) : CloseBarrier sessions where
  refused close member := by
    unfold registerForSession registerInner
    rcases flags.flagged close member with down | closing
    · rw [if_pos down]
      exact ⟨_, rfl⟩
    · split
      · exact ⟨_, rfl⟩
      · dsimp only
        rw [if_pos closing]
        exact ⟨_, rfl⟩
  idle := flags.idle
  total := flags.books.total

/-- An owner of a barrier ends as the only one of its session, or in a shutdown of the program. -/
def EndsAlone (sessions : SerialSessions) : SerialEvent → Prop
  | .endClose id => ∀ close, sessions.close? id = some close →
    SerialClosePhase.ends close.phase = true → sessions.registry.shuttingDown = true ∨
      ∀ other ∈ sessions.closes, other.id ≠ id → other.sessionId ≠ close.sessionId
  | _ => True

theorem mem_setPhase {id : Nat} {phase : SerialClosePhase} {close : SerialClose}
    (member : close ∈ (sessions.setPhase id phase).closes) :
    ∃ old ∈ sessions.closes, close.sessionId = old.sessionId ∧
      (close = old ∨ (old.id = id ∧ close.phase = phase)) := by
  obtain ⟨old, inside, same⟩ := mem_map.mp member
  refine ⟨old, inside, ?_⟩
  split at same
  next hit => exact ⟨same ▸ rfl, .inr ⟨hit, same ▸ rfl⟩⟩
  next => exact ⟨same ▸ rfl, .inl same.symm⟩

theorem setPhase_ids (phase : SerialClosePhase) :
    (sessions.setPhase id phase).closes.map (·.id) = sessions.closes.map (·.id) := by
  unfold setPhase
  rw [map_map]
  refine map_congr_left fun close _ => ?_
  dsimp only [Function.comp]
  split <;> rfl

theorem close?_unique (distinct : (sessions.closes.map (·.id)).Nodup) {id : Nat}
    {close other : SerialClose} (found : sessions.close? id = some close)
    (member : other ∈ sessions.closes) (same : other.id = id) : other = close := by
  have inside := mem_of_find?_eq_some found
  have hit : close.id = id := by simpa using find?_some found
  exact inj_on_of_nodup_map distinct member inside (same.trans hit.symm)

theorem setPhase_flags (flags : FlagsSet sessions) {id : Nat} {phase : SerialClosePhase}
    (quiet : phase = .closing true → ∀ old ∈ sessions.closes, old.id = id →
      sessions.registry.activeForSession old.sessionId = 0) :
    FlagsSet (sessions.setPhase id phase) where
  books := books_of_closes flags.books _ _ _ (Nat.le_refl _)
  distinct := by
    rw [setPhase_ids]
    exact flags.distinct
  recent close member := by
    have ids := mem_map_of_mem (f := SerialClose.id) member
    rw [setPhase_ids] at ids
    obtain ⟨old, inside, same⟩ := mem_map.mp ids
    rw [← same]
    exact flags.recent old inside
  flagged close member := by
    obtain ⟨old, inside, same, -⟩ := mem_setPhase member
    rw [same]
    exact flags.flagged old inside
  idle close member ended := by
    obtain ⟨old, inside, same, cases⟩ := mem_setPhase member
    rw [same]
    rcases cases with rfl | ⟨hit, changed⟩
    · exact flags.idle close inside ended
    · exact quiet (changed.symm.trans ended) old inside hit

theorem register_flags (flags : FlagsSet sessions) (sessionId : String) :
    FlagsSet (sessions.register sessionId) := by
  have books := register_books flags.books sessionId
  rcases register_spec sessionId with ⟨_, _, same⟩ | ⟨up, unflagged, same⟩
  · rw [same]
    exact flags
  · rw [same] at books ⊢
    refine ⟨books, flags.distinct, fun close member => lt_succ_of_lt (flags.recent close member),
      flags.flagged, ?_⟩
    intro close member ended
    have quiet := flags.idle close member ended
    have other : close.sessionId ≠ sessionId := by
      rintro rfl
      rcases flags.flagged close member with down | closing
      · rw [up] at down
        exact absurd down (by simp)
      · exact unflagged closing
    rw [flags.books.counts] at quiet
    rw [books.counts]
    unfold workersOf at quiet ⊢
    rw [countP_cons, quiet]
    simp [Ne.symm other]

theorem dropWorker_flags (flags : FlagsSet sessions) (worker : Nat) :
    FlagsSet (sessions.dropWorker worker) := by
  have books := dropWorker_books flags.books worker
  unfold dropWorker at books ⊢
  split
  next => exact flags
  next sessionId found =>
    rw [found] at books
    refine ⟨books, flags.distinct, flags.recent, flags.flagged, ?_⟩
    intro close member ended
    have quiet := flags.idle close member ended
    rw [flags.books.counts, workersOf_drop flags.books.ids found] at quiet
    rw [books.counts]
    dsimp only
    omega

theorem beginClose_flags (flags : FlagsSet sessions) (sessionId : String) :
    FlagsSet (sessions.beginClose sessionId) where
  books := books_of_closes flags.books _ _ _ (le_succ _)
  distinct := by
    unfold beginClose
    rw [map_cons, nodup_cons]
    refine ⟨?_, flags.distinct⟩
    intro member
    obtain ⟨close, inside, same⟩ := mem_map.mp member
    have := flags.recent close inside
    dsimp only at same
    omega
  recent close member := by
    rcases mem_cons.mp member with rfl | old
    · exact lt_succ_self _
    · exact lt_succ_of_lt (flags.recent close old)
  flagged close member := by
    unfold beginClose beginSessionShutdown
    dsimp only
    rw [mem_insert_iff]
    rcases mem_cons.mp member with rfl | old
    · exact .inr (.inl rfl)
    · exact (flags.flagged close old).imp_right .inr
  idle close member ended := by
    rcases mem_cons.mp member with rfl | old
    · exact absurd ended (by simp)
    · exact flags.idle close old ended

theorem endClose_flags (flags : FlagsSet sessions) {id : Nat}
    (alone : sessions.EndsAlone (.endClose id)) : FlagsSet (sessions.endClose id) := by
  rcases endClose_spec id with same | ⟨close, found, ends, same⟩
  · rw [same]
    exact flags
  · have others := alone close found ends
    rw [same]
    have books := books_of_closes flags.books
      (sessions.registry.endSessionShutdown close.sessionId).state.closingSessions
      sessions.registry.shuttingDown (sessions.closes.filter fun other => other.id ≠ id)
      (Nat.le_refl _)
    refine ⟨books, flags.distinct.sublist (filter_sublist.map _), ?_, ?_, ?_⟩
    · exact fun other member => flags.recent other (mem_filter.mp member).1
    · intro other member
      obtain ⟨inside, apart⟩ := mem_filter.mp member
      rcases flags.flagged other inside with down | closing
      · exact .inl down
      · refine others.imp_right fun alone => ?_
        refine mem_filter.mpr ⟨closing, ?_⟩
        simpa using alone other inside (by simpa using apart)
    · exact fun other member => flags.idle other (mem_filter.mp member).1

theorem step_flags (flags : FlagsSet sessions) {event : SerialEvent}
    (alone : sessions.EndsAlone event) : FlagsSet (sessions.step event) := by
  cases event with
  | register sessionId => exact register_flags flags sessionId
  | dropWorker worker => exact dropWorker_flags flags worker
  | beginShutdown =>
    exact ⟨books_of_closes flags.books _ true _ (Nat.le_refl _), flags.distinct, flags.recent,
      fun _ _ => .inl rfl, flags.idle⟩
  | beginClose sessionId => exact beginClose_flags flags sessionId
  | observeIdle id =>
    change FlagsSet (sessions.observeIdle id)
    rcases observeIdle_spec id with same | ⟨close, found, quiet, phase, same⟩ <;> rw [same]
    · exact flags
    · refine setPhase_flags flags fun _ old member hit => ?_
      rw [close?_unique flags.distinct found member hit]
      exact quiet
  | deferUntilIdle id spawned =>
    change FlagsSet (sessions.deferUntilIdle id spawned)
    rcases deferUntilIdle_spec id spawned with same | ⟨phase, other, same⟩ <;> rw [same]
    · exact flags
    · exact setPhase_flags flags fun ended => absurd ended other
  | endClose id => exact endClose_flags flags alone

theorem initial_flags : FlagsSet initial where
  books := ⟨nodup_nil, fun _ => rfl, rfl, nodup_nil, fun _ none => absurd none not_mem_nil⟩
  distinct := nodup_nil
  recent _ none := absurd none not_mem_nil
  flagged _ none := absurd none not_mem_nil
  idle _ none := absurd none not_mem_nil

theorem endsAlone_of_barrier {event : SerialEvent} (barrier : CloseBarrier (sessions.step event)) :
    sessions.EndsAlone event := by
  cases event with
  | endClose id =>
    intro close found ends
    by_contra shared
    simp only [not_or, Bool.not_eq_true, not_forall] at shared
    obtain ⟨up, other, member, apart, same⟩ := shared
    have ended : sessions.endClose id =
        { sessions with
          registry := sessions.registry.endSessionShutdown close.sessionId
          closes := sessions.closes.filter fun other => other.id ≠ id } := by
      unfold endClose
      rw [found]
      exact if_pos ends
    have left : CloseBarrier (sessions.endClose id) := barrier
    rw [ended] at left
    obtain ⟨message, refusal⟩ := left.refused other
      (mem_filter.mpr ⟨member, by simpa using apart⟩)
    rw [not_not.mp same] at refusal
    unfold registerForSession registerInner at refusal
    simp [endSessionShutdown, up] at refusal
  | _ => trivial

/-- The barrier holds at every moment of a run if and only if no guard or cleanup ends while the barrier
of its session has another owner. -/
theorem serial_close_barrier_iff (events : List SerialEvent) :
    (∀ count, CloseBarrier (serialSessions.run initial (events.take count)).1) ↔
      serialSessions.StepsMeet EndsAlone initial events := by
  have run : ∀ (events : List SerialEvent) (sessions : SerialSessions), FlagsSet sessions →
      ((∀ count, CloseBarrier (serialSessions.run sessions (events.take count)).1) ↔
        serialSessions.StepsMeet EndsAlone sessions events) := by
    intro events
    induction events with
    | nil =>
      intro sessions flags
      refine ⟨fun _ => trivial, fun _ count => ?_⟩
      rw [take_nil]
      exact flags.barrier
    | cons event events ih =>
      intro sessions flags
      constructor
      · intro barrier
        have alone : sessions.EndsAlone event := endsAlone_of_barrier (barrier 1)
        exact ⟨alone, (ih _ (step_flags flags alone)).mp fun count => barrier (count + 1)⟩
      · rintro ⟨alone, rest⟩ count
        cases count with
        | zero => exact flags.barrier
        | succ count => exact (ih _ (step_flags flags alone)).mpr rest count
  exact run events initial initial_flags

/-- A close that timed out leaves its cleanup behind, the retry finds the session idle, and the end of
the cleanup then lets a worker in under the guard of the retry. -/
theorem retried_close_not_guarded :
    ¬CloseBarrier (serialSessions.run initial
      [.register "com1", .beginClose "com1", .deferUntilIdle 1 true, .dropWorker 0, .observeIdle 1,
        .beginClose "com1", .observeIdle 2, .endClose 1, .register "com1"]).1 := by
  intro barrier
  have worker := barrier.idle ⟨2, "com1", .closing true⟩ (by decide) rfl
  exact absurd worker (by decide)

end SerialSessions

end PortMate
