import Mathlib.Data.List.Sort
import PortMate.EventLog

namespace PortMate

open List MutateClosure

section DropOldest

variable {α : Type}

theorem dropOldest_sublist (hits : α → Bool) (n : Nat) (items : List α) :
    (dropOldest hits n items).Sublist items := by
  induction items generalizing n with
  | nil => cases n <;> exact .slnil
  | cons item items ih =>
    cases n with
    | zero => exact List.Sublist.refl _
    | succ n =>
      rw [dropOldest]
      split
      · exact (ih n).cons item
      · exact (ih (n + 1)).cons_cons item

theorem dropOldest_filter (hits : α → Bool) (n : Nat) (items : List α) :
    (dropOldest hits n items).filter hits = (items.filter hits).drop n := by
  induction items generalizing n with
  | nil => cases n <;> rfl
  | cons item items ih =>
    cases n with
    | zero => rfl
    | succ n =>
      rw [dropOldest]
      split
      next hit => rw [filter_cons_of_pos hit, drop_succ_cons, ih]
      next miss => rw [filter_cons_of_neg miss, filter_cons_of_neg miss, ih]

theorem dropOldest_filter_other {hits others : α → Bool}
    (apart : ∀ item, others item = true → hits item = false) (n : Nat) (items : List α) :
    (dropOldest hits n items).filter others = items.filter others := by
  induction items generalizing n with
  | nil => cases n <;> rfl
  | cons item items ih =>
    cases n with
    | zero => rfl
    | succ n =>
      rw [dropOldest]
      split
      next hit =>
        have other : ¬ others item = true := by
          intro wanted
          rw [apart item wanted] at hit
          exact absurd hit (by decide)
        rw [filter_cons_of_neg other, ih]
      next => rw [filter_cons, filter_cons, ih]

end DropOldest

namespace SessionStore

def sessionEvents (events : List SessionEvent) (sessionId : String) : List SessionEvent :=
  events.filter fun event => event.sessionId = sessionId

variable (events : List SessionEvent)

theorem countP_sessionEvents (sessionId : String) :
    (events.countP fun event => event.sessionId = sessionId) =
      (sessionEvents events sessionId).length :=
  countP_eq_length_filter

/-- Events are in the order of their times, and what the cache knows is true. -/
structure LogInvariant (store : SessionStore) (clock : DateTime) : Prop where
  sorted : store.events.Pairwise fun first second => first.ts ≤ second.ts
  past : ∀ event ∈ store.events, event.ts ≤ clock
  counts : ∀ sessionId count, store.eventCounts.lookup sessionId = some count →
    count = (sessionEvents store.events sessionId).length
  bounded : ∀ sessionId,
    (sessionEvents store.events sessionId).length ≤ maxEventsPerSession + eventTrimBatch

/-- What is left of the recorded events: every session loses its oldest ones, down to the maximum,
and only when it has more than that. -/
structure TrimsOldest (recorded left : List SessionEvent) (only : Option String) : Prop where
  sublist : left.Sublist recorded
  oldest : ∀ sessionId, sessionEvents left sessionId = sessionEvents recorded sessionId ∨
    (maxEventsPerSession < (sessionEvents recorded sessionId).length ∧
      (∀ one ∈ only, sessionId = one) ∧
      sessionEvents left sessionId = (sessionEvents recorded sessionId).drop
        ((sessionEvents recorded sessionId).length - maxEventsPerSession))

theorem TrimsOldest.refl (recorded : List SessionEvent) (only : Option String) :
    TrimsOldest recorded recorded only :=
  ⟨List.Sublist.refl _, fun _ => .inl rfl⟩

theorem lookup_renewed {counts : List (String × Nat)} {sessionId other : String} {count found : Nat}
    (lookup : ((sessionId, count) :: counts.filter fun entry => entry.1 ≠ sessionId).lookup other =
      some found) :
    (other = sessionId ∧ found = count) ∨ (other ≠ sessionId ∧ counts.lookup other = some found) := by
  rw [lookup_cons, lookup_filter_ne] at lookup
  by_cases same : other = sessionId
  · subst same
    exact .inl ⟨rfl, by simpa using lookup.symm⟩
  · rw [beq_false_of_ne same, if_neg same] at lookup
    exact .inr ⟨same, lookup⟩

theorem trimEventsIfNeeded_eq {store : SessionStore} {sessionId : String} {total : Nat}
    (warm : ∀ cached, store.eventCounts.lookup sessionId = some cached → cached + 1 = total)
    (cold : (store.events.countP fun event => event.sessionId = sessionId) = total) :
    store.trimEventsIfNeeded sessionId =
      if total ≤ maxEventsPerSession + eventTrimBatch then
        { store with eventCounts :=
            (sessionId, total) :: store.eventCounts.filter fun entry => entry.1 ≠ sessionId }
      else
        { store with
          events := dropOldest (fun event => event.sessionId = sessionId)
            (total - maxEventsPerSession) store.events
          eventCounts := (sessionId, maxEventsPerSession) ::
            store.eventCounts.filter fun entry => entry.1 ≠ sessionId } := by
  unfold trimEventsIfNeeded
  cases known : store.eventCounts.lookup sessionId with
  | none =>
    dsimp only
    rw [cold]
  | some cached =>
    dsimp only
    rw [warm cached known]

variable (store : SessionStore)

variable (event : SessionEvent)

theorem trimEventsIfNeeded_spec (before : List SessionEvent)
    (pushed : store.events.Perm (event :: before))
    (counts : ∀ sessionId count, store.eventCounts.lookup sessionId = some count → count = (sessionEvents before sessionId).length) :
    TrimsOldest store.events (store.trimEventsIfNeeded event.sessionId).events
        (some event.sessionId) ∧
      (sessionEvents (store.trimEventsIfNeeded event.sessionId).events event.sessionId).length ≤
        maxEventsPerSession + eventTrimBatch ∧
      ∀ sessionId count,
        (store.trimEventsIfNeeded event.sessionId).eventCounts.lookup sessionId = some count →
        count = (sessionEvents (store.trimEventsIfNeeded event.sessionId).events sessionId).length := by
  have size : ∀ sessionId, (sessionEvents store.events sessionId).length =
      (if event.sessionId = sessionId then 1 else 0) + (sessionEvents before sessionId).length := by
    intro sessionId
    rw [← countP_sessionEvents, ← countP_sessionEvents, pushed.countP_eq, countP_cons]
    simp [Nat.add_comm]
  have warm : ∀ cached, store.eventCounts.lookup event.sessionId = some cached →
      cached + 1 = (sessionEvents store.events event.sessionId).length := by
    intro cached known
    rw [size, if_pos rfl, counts _ _ known, Nat.add_comm]
  have others : ∀ sessionId, sessionId ≠ event.sessionId → ∀ count,
      store.eventCounts.lookup sessionId = some count →
      count = (sessionEvents store.events sessionId).length := by
    intro sessionId other count known
    rw [size, if_neg (Ne.symm other), Nat.zero_add]
    exact counts sessionId count known
  rw [trimEventsIfNeeded_eq warm (countP_sessionEvents _ _)]
  split
  next few =>
    refine ⟨.refl _ _, few, fun sessionId count known => ?_⟩
    obtain ⟨rfl, rfl⟩ | ⟨other, known⟩ := lookup_renewed known
    · rfl
    · exact others sessionId other count known
  next many =>
    dsimp only
    have here := dropOldest_filter (fun recorded : SessionEvent => recorded.sessionId = event.sessionId)
      ((sessionEvents store.events event.sessionId).length - maxEventsPerSession) store.events
    have elsewhere : ∀ sessionId, sessionId ≠ event.sessionId →
        sessionEvents (dropOldest (fun recorded => recorded.sessionId = event.sessionId)
          ((sessionEvents store.events event.sessionId).length - maxEventsPerSession) store.events)
          sessionId = sessionEvents store.events sessionId := by
      intro sessionId other
      apply dropOldest_filter_other
      intro recorded wanted
      have named : recorded.sessionId = sessionId := of_decide_eq_true wanted
      rw [named]
      exact decide_eq_false other
    have kept : (sessionEvents (dropOldest (fun recorded => recorded.sessionId = event.sessionId)
        ((sessionEvents store.events event.sessionId).length - maxEventsPerSession) store.events)
        event.sessionId).length = maxEventsPerSession := by
      rw [sessionEvents, here, length_drop]
      show (sessionEvents store.events event.sessionId).length - _ = _
      omega
    refine ⟨⟨dropOldest_sublist _ _ _, fun sessionId => ?_⟩, ?_, fun sessionId count known => ?_⟩
    · by_cases same : sessionId = event.sessionId
      · subst same
        have more : maxEventsPerSession < (sessionEvents store.events event.sessionId).length := by
          omega
        exact .inr ⟨more, fun one named => Option.some.inj named, here⟩
      · exact .inl (elsewhere sessionId same)
    · rw [kept]
      omega
    · obtain ⟨rfl, rfl⟩ | ⟨other, known⟩ := lookup_renewed known
      · exact kept.symm
      · rw [elsewhere sessionId other]
        exact others sessionId other count known

theorem insertEvent_perm : (insertEvent events event).Perm (event :: events) := by
  unfold insertEvent
  split
  · exact (mergeSort_perm _ _).trans (perm_append_singleton event events)
  · exact perm_append_singleton event events

theorem insertEvent_sorted {events : List SessionEvent}
    (sorted : events.Pairwise fun first second => first.ts ≤ second.ts) (event : SessionEvent) :
    (insertEvent events event).Pairwise fun first second => first.ts ≤ second.ts := by
  unfold insertEvent
  split
  · have transitive : ∀ first second third : SessionEvent, decide (first.ts ≤ second.ts) = true →
        decide (second.ts ≤ third.ts) = true → decide (first.ts ≤ third.ts) = true := by
      intro first second third before after
      simp only [decide_eq_true_eq] at before after ⊢
      exact Int.le_trans before after
    have total : ∀ first second : SessionEvent,
        (decide (first.ts ≤ second.ts) || decide (second.ts ≤ first.ts)) = true := by
      intro first second
      simp only [Bool.or_eq_true, decide_eq_true_eq]
      exact Int.le_total first.ts second.ts
    have ordered := pairwise_mergeSort transitive total (events ++ [event])
    exact ordered.imp fun le => of_decide_eq_true le
  next late =>
    refine pairwise_append.mpr ⟨sorted, pairwise_singleton _ _, ?_⟩
    intro recorded inside other last
    obtain rfl := mem_singleton.mp last
    obtain rfl | ⟨earlier, newest, rfl⟩ := eq_nil_or_concat' events
    · exact absurd inside not_mem_nil
    · have latest : newest.ts ≤ other.ts := Int.not_lt.mp (by simpa using late)
      obtain before | here := mem_append.mp inside
      · have ordered := (pairwise_append.mp sorted).2.2 recorded before newest
          (mem_singleton.mpr rfl)
        exact Int.le_trans ordered latest
      · obtain rfl := mem_singleton.mp here
        exact latest

theorem sorted_append {events : List SessionEvent} {clock : DateTime}
    (sorted : events.Pairwise fun first second => first.ts ≤ second.ts)
    (past : ∀ event ∈ events, event.ts ≤ clock) {event : SessionEvent} (now : clock ≤ event.ts) :
    (events ++ [event]).Pairwise fun first second => first.ts ≤ second.ts := by
  refine pairwise_append.mpr ⟨sorted, pairwise_singleton _ _, ?_⟩
  intro recorded inside other last
  obtain rfl := mem_singleton.mp last
  exact Int.le_trans (past recorded inside) now

theorem LogInvariant.records {store pushed : SessionStore} {clock now : DateTime}
    (inv : LogInvariant store clock) {event : SessionEvent}
    (added : pushed.events.Perm (event :: store.events))
    (sorted : pushed.events.Pairwise fun first second => first.ts ≤ second.ts)
    (cached : pushed.eventCounts = store.eventCounts) (later : clock ≤ now) (timely : event.ts ≤ now) :
    LogInvariant (pushed.trimEventsIfNeeded event.sessionId) now ∧
      TrimsOldest pushed.events (pushed.trimEventsIfNeeded event.sessionId).events
        (some event.sessionId) := by
  have known := inv.counts
  rw [← cached] at known
  obtain ⟨trims, fits, counts⟩ := trimEventsIfNeeded_spec pushed event store.events added known
  refine ⟨⟨sorted.sublist trims.sublist, ?_, counts, ?_⟩, trims⟩
  · intro recorded inside
    obtain rfl | old := mem_cons.mp (added.subset (trims.sublist.subset inside))
    · exact timely
    · exact Int.le_trans (inv.past recorded old) later
  · intro sessionId
    by_cases same : sessionId = event.sessionId
    · rw [same]
      exact fits
    · obtain kept | ⟨_, only, _⟩ := trims.oldest sessionId
      · have size : (sessionEvents pushed.events sessionId).length =
            (sessionEvents store.events sessionId).length := by
          rw [← countP_sessionEvents, added.countP_eq, countP_cons_of_neg, countP_sessionEvents]
          simpa using Ne.symm same
        rw [kept, size]
        exact inv.bounded sessionId
      · exact absurd (only _ rfl) same

theorem LogInvariant.later {store : SessionStore} {clock now : DateTime}
    (inv : LogInvariant store clock) (later : clock ≤ now) : LogInvariant store now :=
  { inv with past := fun event inside => Int.le_trans (inv.past event inside) later }

theorem trimTransferHistory_log (sessionId : String) :
    (store.trimTransferHistory sessionId).events = store.events ∧
      (store.trimTransferHistory sessionId).eventCounts = store.eventCounts := by
  unfold trimTransferHistory
  dsimp only
  split
  · exact ⟨rfl, rfl⟩
  · exact ⟨rfl, rfl⟩

theorem foldl_trimTransferHistory_log (sessions : List String) (store : SessionStore) :
    (sessions.foldl trimTransferHistory store).events = store.events ∧
      (sessions.foldl trimTransferHistory store).eventCounts = store.eventCounts := by
  induction sessions generalizing store with
  | nil => exact ⟨rfl, rfl⟩
  | cons first sessions ih =>
    obtain ⟨events, counts⟩ := trimTransferHistory_log store first
    rw [foldl_cons, (ih _).1, (ih _).2, events, counts]
    exact ⟨rfl, rfl⟩

theorem countEvents_concat :
    countEvents (events ++ [event]) = upsertEntry event.sessionId 0 (· + 1) (countEvents events) := by
  rw [countEvents, foldl_append]
  rfl

theorem countEvents_real (sessionId : String) :
    ((countEvents events).lookup sessionId).getD 0 = (sessionEvents events sessionId).length := by
  induction events using List.reverseRecOn with
  | nil => rfl
  | append_singleton events event ih =>
    rw [countEvents_concat, lookup_upsertEntry, sessionEvents, List.filter_append,
      length_append]
    by_cases same : sessionId = event.sessionId
    · subst same
      rw [if_pos rfl, Option.getD_some, ih]
      simp [sessionEvents]
    · rw [if_neg same, ih]
      simp [sessionEvents, Ne.symm same]

theorem keepLast_trims :
    TrimsOldest events (keepLast (·.sessionId) maxEventsPerSession events) none := by
  refine ⟨retainLast_sublist _ _ _ _, fun sessionId => ?_⟩
  have kept := keepLast_filter (fun event : SessionEvent => event.sessionId) maxEventsPerSession events
    sessionId
  rw [countP_sessionEvents] at kept
  obtain more | few := Nat.lt_or_ge maxEventsPerSession (sessionEvents events sessionId).length
  · exact .inr ⟨more, nofun, kept⟩
  · rw [Nat.sub_eq_zero_of_le few, drop_zero] at kept
    exact .inl kept

theorem LogInvariant.normalizes {store : SessionStore} {clock : DateTime}
    (inv : LogInvariant store clock) :
    LogInvariant store.normalizeBoundedHistories clock ∧
      TrimsOldest store.events store.normalizeBoundedHistories.events none := by
  have trims := keepLast_trims store.events
  unfold normalizeBoundedHistories
  dsimp only
  generalize (store.transfers.map (·.sessionId)).dedup = sessions
  have log := foldl_trimTransferHistory_log sessions
    { store with
      events := keepLast (·.sessionId) maxEventsPerSession store.events
      eventCounts := countEvents (keepLast (·.sessionId) maxEventsPerSession store.events)
      audit := trimEveryScope (·.sessionId) maxAuditRecordsPerScope store.audit
      timeline := trimEveryScope (·.sessionId) maxTimelineMarksPerSession store.timeline
      sysmon := trimEveryScope (·.sessionId) maxSysmonSnapshotsPerSession store.sysmon }
  refine ⟨⟨?_, ?_, ?_, ?_⟩, ?_⟩
  · rw [log.1]
    exact inv.sorted.sublist trims.sublist
  · rw [log.1]
    exact fun event inside => inv.past event (trims.sublist.subset inside)
  · rw [log.1, log.2]
    intro sessionId count known
    have real := countEvents_real (keepLast (·.sessionId) maxEventsPerSession store.events) sessionId
    rw [known] at real
    exact real
  · rw [log.1]
    intro sessionId
    have less := (trims.sublist.filter fun event => event.sessionId = sessionId).length_le
    exact Nat.le_trans less (inv.bounded sessionId)
  · rw [log.1]
    exact trims

theorem LogInvariant.deletes {store : SessionStore} {clock : DateTime}
    (inv : LogInvariant store clock) (sessionId : String) (now : DateTime) :
    LogInvariant (store.eraseProfile sessionId now) clock := by
  have sublist : (store.eraseProfile sessionId now).events.Sublist store.events := filter_sublist
  refine ⟨inv.sorted.sublist sublist, fun event inside => inv.past event (sublist.subset inside), ?_,
    fun other => ?_⟩
  · intro other count known
    have known : (store.eventCounts.filter fun entry => entry.1 ≠ sessionId).lookup other =
        some count := known
    rw [lookup_filter_ne] at known
    split at known
    · exact nomatch known
    next differs =>
      rw [inv.counts other count known]
      show _ = (sessionEvents (store.events.filter _) other).length
      rw [sessionEvents, sessionEvents, filter_filter]
      congr 2
      funext event
      by_cases here : event.sessionId = other
      · simp [here, differs]
      · simp [here]
  · exact Nat.le_trans (sublist.filter _).length_le (inv.bounded other)

/-- An operation that records an event leaves what the trim leaves of the log with the event. -/
def Records (store after : SessionStore) (event : SessionEvent) (events : List SessionEvent) : Prop :=
  ∃ pushed : SessionStore, pushed.events = events ∧ pushed.eventCounts = store.eventCounts ∧
    after.events = (pushed.trimEventsIfNeeded event.sessionId).events ∧
    after.eventCounts = (pushed.trimEventsIfNeeded event.sessionId).eventCounts

theorem recordPreparedEvent_records (parser : Nat) :
    ((store.recordPreparedEvent event parser).1.isOk = false ∧
        (store.recordPreparedEvent event parser).2 = store) ∨
      Records store (store.recordPreparedEvent event parser).2 event
        (insertEvent store.events event) := by
  unfold recordPreparedEvent
  split
  · exact .inl ⟨rfl, rfl⟩
  · split
    · exact .inl ⟨rfl, rfl⟩
    · right
      refine ⟨_, ?_, ?_, rfl, rfl⟩
      · dsimp only
        unfold processTerminalOutput
        split
        · split <;> rfl
        · rfl
      · dsimp only
        unfold processTerminalOutput
        split
        · split <;> rfl
        · rfl

theorem sendText_records (actor sessionId redacted : String) (bytesRef auditAction : Option String)
    (auditBytes : Nat) (eventId auditId : String) (now : DateTime) :
    (store.sendTextWithBytesRefAndAuditAction actor sessionId redacted bytesRef auditAction
        auditBytes eventId auditId now).2 = store ∨
      Records store (store.sendTextWithBytesRefAndAuditAction actor sessionId redacted bytesRef
        auditAction auditBytes eventId auditId now).2
        (sentEvent eventId actor sessionId redacted bytesRef now)
        (store.events ++ [sentEvent eventId actor sessionId redacted bytesRef now]) := by
  unfold sendTextWithBytesRefAndAuditAction
  split
  · exact .inl rfl
  · right
    refine ⟨{ store.editRuntime sessionId fun runtime => { runtime with lastActivity := now } with
      events := store.events ++ [sentEvent eventId actor sessionId redacted bytesRef now] },
      rfl, rfl, ?_⟩
    cases auditAction with
    | none => exact ⟨rfl, rfl⟩
    | some action => exact ⟨rfl, rfl⟩

theorem pushSystemEvent_records (sink : SystemEventSinkState) (eventId sessionId text : String)
    (answer : TrySend) (now : DateTime) :
    ((pushSystemEvent eventId now answer sessionId text).run store sink).store = store ∨
      ∃ event : SessionEvent, event.sessionId = sessionId ∧ event.ts = now ∧
        Records store ((pushSystemEvent eventId now answer sessionId text).run store sink).store
          event (store.events ++ [event]) := by
  cases known : store.profile sessionId with
  | none =>
    left
    simp [pushSystemEvent, run, known]
  | some profile =>
    right
    simp only [pushSystemEvent, run, known]
    generalize answered : (sink.enqueue answer (systemEvent eventId sessionId text now)
      (some profile)).1 = result
    cases result with
    | ok _ =>
      refine ⟨systemEvent eventId sessionId text now, rfl, rfl, ?_⟩
      exact ⟨{ store with events := store.events ++ [systemEvent eventId sessionId text now] },
        rfl, rfl, rfl, rfl⟩
    | error error =>
      let marked : SessionEvent := { systemEvent eventId sessionId text now with
        annotations := (systemEvent eventId sessionId text now).annotations.insert "loggingError"
          error }
      refine ⟨marked, rfl, rfl, ?_⟩
      exact ⟨{ store with events := store.events ++ [marked] }, rfl, rfl, rfl, rfl⟩

theorem deleteProfile_store (sink : SystemEventSinkState) (sessionId : String) (now : DateTime) :
    (store.deleteProfile sink sessionId now).2.1 = store ∨
      (store.deleteProfile sink sessionId now).2.1 = store.eraseProfile sessionId now := by
  unfold deleteProfile deleteProfileDeferredSystemEventCleanup
  split
  next failed =>
    left
    split at failed
    · exact (Prod.mk.inj failed).2.symm
    · split at failed
      · exact (Prod.mk.inj failed).2.symm
      · split at failed
        · exact (Prod.mk.inj failed).2.symm
        · exact absurd (Prod.mk.inj failed).1 nofun
  next done =>
    right
    split at done
    · exact absurd (Prod.mk.inj done).1 nofun
    · split at done
      · exact absurd (Prod.mk.inj done).1 nofun
      · split at done
        · exact absurd (Prod.mk.inj done).1 nofun
        · exact (Prod.mk.inj done).2.symm

/-- What an operation does to the log: a deletion takes the events of its session, any other one
leaves what the trim leaves of the log with the event it records, if it records one. -/
def LogChange (before after : List SessionEvent) (operation : EventOperation) : Prop :=
  match operation with
  | .deleteProfile sessionId =>
    after = before ∨ after = before.filter fun event => event.sessionId ≠ sessionId
  | _ => ∃ recorded,
      (recorded = before ∨ ∃ event : SessionEvent, operation.session = some event.sessionId ∧
        recorded.Perm (event :: before)) ∧
      (recorded.Pairwise fun first second => first.ts ≤ second.ts) ∧
      TrimsOldest recorded after operation.session

theorem LogInvariant.of_records {store after : SessionStore} {clock now : DateTime}
    (inv : LogInvariant store clock) {event : SessionEvent} {events : List SessionEvent}
    (records : Records store after event events) (added : events.Perm (event :: store.events))
    (sorted : events.Pairwise fun first second => first.ts ≤ second.ts) (later : clock ≤ now)
    (timely : event.ts ≤ now) :
    LogInvariant after now ∧ TrimsOldest events after.events (some event.sessionId) := by
  obtain ⟨pushed, rfl, cached, left, counts⟩ := records
  obtain ⟨kept, trims⟩ := inv.records added sorted cached later timely
  rw [← left] at trims
  refine ⟨⟨?_, ?_, ?_, ?_⟩, trims⟩
  · rw [left]
    exact kept.sorted
  · rw [left]
    exact kept.past
  · rw [left, counts]
    exact kept.counts
  · rw [left]
    exact kept.bounded

end SessionStore

open SessionStore

theorem EventLog.apply_invariant {log : EventLog} (inv : LogInvariant log.store log.clock)
    (now : DateTime) (operation : EventOperation) (timely : log.Timely (now, operation)) :
    LogInvariant (log.apply now operation).store (log.apply now operation).clock ∧
      LogChange log.store.events (log.apply now operation).store.events operation := by
  obtain ⟨later, prepared⟩ := timely
  have same : ∃ recorded, (recorded = log.store.events ∨ ∃ event : SessionEvent,
      operation.session = some event.sessionId ∧ recorded.Perm (event :: log.store.events)) ∧
      (recorded.Pairwise fun first second => first.ts ≤ second.ts) ∧
      TrimsOldest recorded log.store.events operation.session :=
    ⟨log.store.events, .inl rfl, inv.sorted, .refl _ _⟩
  cases operation with
  | recordPreparedEvent event parser =>
    have notFuture := prepared event parser rfl
    obtain ⟨-, kept⟩ | records := recordPreparedEvent_records log.store event parser
    · show LogInvariant (log.store.recordPreparedEvent event parser).2 now ∧ LogChange _
        (log.store.recordPreparedEvent event parser).2.events _
      rw [kept]
      exact ⟨inv.later later, same⟩
    · have added := insertEvent_perm log.store.events event
      have sorted := insertEvent_sorted inv.sorted event
      obtain ⟨kept, trims⟩ := inv.of_records records added sorted later notFuture
      exact ⟨kept, _, .inr ⟨event, rfl, added⟩, sorted, trims⟩
  | pushSystemEvent eventId sessionId text answer =>
    obtain kept | ⟨event, rfl, time, records⟩ :=
      pushSystemEvent_records log.store log.sink eventId sessionId text answer now
    · show LogInvariant ((pushSystemEvent eventId now answer sessionId text).run log.store
          log.sink).store now ∧ LogChange _ ((pushSystemEvent eventId now answer sessionId
            text).run log.store log.sink).store.events _
      rw [kept]
      exact ⟨inv.later later, same⟩
    · have added := perm_append_singleton event log.store.events
      have sorted := sorted_append inv.sorted inv.past (later.trans_eq time.symm)
      obtain ⟨kept, trims⟩ := inv.of_records records added sorted later (Int.le_of_eq time)
      exact ⟨kept, _, .inr ⟨event, rfl, added⟩, sorted, trims⟩
  | sendText actor sessionId redacted bytesRef auditAction auditBytes eventId auditId =>
    obtain kept | records := sendText_records log.store actor sessionId redacted bytesRef auditAction
      auditBytes eventId auditId now
    · show LogInvariant (log.store.sendTextWithBytesRefAndAuditAction actor sessionId redacted
          bytesRef auditAction auditBytes eventId auditId now).2 now ∧ LogChange _
        (log.store.sendTextWithBytesRefAndAuditAction actor sessionId redacted bytesRef auditAction
          auditBytes eventId auditId now).2.events _
      rw [kept]
      exact ⟨inv.later later, same⟩
    · have added := perm_append_singleton
        (sentEvent eventId actor sessionId redacted bytesRef now) log.store.events
      have sent : log.clock ≤ (sentEvent eventId actor sessionId redacted bytesRef now).ts := later
      have sorted := sorted_append inv.sorted inv.past sent
      obtain ⟨kept, trims⟩ := inv.of_records records added sorted later (Int.le_refl now)
      exact ⟨kept, _, .inr ⟨_, rfl, added⟩, sorted, trims⟩
  | deleteProfile sessionId =>
    show LogInvariant (log.store.deleteProfile log.sink sessionId now).2.1 now ∧ LogChange _
      (log.store.deleteProfile log.sink sessionId now).2.1.events _
    obtain kept | erased := deleteProfile_store log.store log.sink sessionId now
    · rw [kept]
      exact ⟨inv.later later, .inl rfl⟩
    · rw [erased]
      exact ⟨(inv.deletes sessionId now).later later, .inr rfl⟩
  | normalizeBoundedHistories =>
    obtain ⟨kept, trims⟩ := inv.normalizes
    exact ⟨kept.later later, _, .inl rfl, inv.sorted, trims⟩

theorem logStats_concat (events : List SessionEvent) (event : SessionEvent) :
    logStats (events ++ [event]) =
      match event.text with
      | none => logStats events
      | some text => upsertEntry event.sessionId (0, none) (fun known => (known.1 + 1, some text))
          (logStats events) := by
  rw [logStats, foldl_append]
  rfl

/-- The texts of a session in the order of the list. -/
def textEvents (events : List SessionEvent) (sessionId : String) : List SessionEvent :=
  events.filter fun event => event.sessionId = sessionId && event.text.isSome

theorem logStats_real (events : List SessionEvent) (sessionId : String) :
    ((logStats events).lookup sessionId).getD (0, none) =
      ((textEvents events sessionId).length,
        (textEvents events sessionId).getLast?.bind (·.text)) := by
  induction events using List.reverseRecOn with
  | nil => rfl
  | append_singleton events event ih =>
    rw [logStats_concat, textEvents, List.filter_append]
    cases text : event.text with
    | none => simpa [text, textEvents] using ih
    | some line =>
      dsimp only
      rw [lookup_upsertEntry]
      by_cases same : sessionId = event.sessionId
      · subst same
        rw [if_pos rfl, ih]
        simp [text, textEvents]
      · rw [if_neg same, ih]
        simp [textEvents, Ne.symm same]

theorem getLast_latest {events : List SessionEvent}
    (sorted : events.Pairwise fun first second => first.ts ≤ second.ts) {last : SessionEvent}
    (isLast : events.getLast? = some last) : ∀ event ∈ events, event.ts ≤ last.ts := by
  intro event inside
  obtain ⟨init, rfl⟩ := getLast?_eq_some_iff.mp isLast
  obtain before | here := mem_append.mp inside
  · exact (pairwise_append.mp sorted).2.2 event before last (mem_singleton.mpr rfl)
  · obtain rfl := mem_singleton.mp here
    exact Int.le_refl _

/-- A summary reports the text of the latest event of its session that has one. -/
def ReportsLatest (events : List SessionEvent) (summary : SessionSummary) : Prop :=
  summary.logLines = (textEvents events summary.profile.id).length ∧
    match summary.lastLine with
    | none => textEvents events summary.profile.id = []
    | some line => ∃ event, (textEvents events summary.profile.id).getLast? = some event ∧
        event.text = some line ∧
        ∀ other ∈ textEvents events summary.profile.id, other.ts ≤ event.ts

theorem SessionStore.LogInvariant.summaries {store : SessionStore} {clock : DateTime}
    (inv : LogInvariant store clock) : ∀ summary ∈ store.summaries, ReportsLatest store.events summary := by
  intro summary listed
  obtain ⟨profile, _, made⟩ := mem_filterMap.mp listed
  obtain ⟨runtime, _, rfl⟩ := Option.map_eq_some_iff.mp made
  rw [logStats_real]
  refine ⟨rfl, ?_⟩
  dsimp only
  have sorted := inv.sorted.sublist (filter_sublist (l := store.events)
    (p := fun event => event.sessionId = profile.id && event.text.isSome))
  have texted : ∀ event ∈ textEvents store.events profile.id, event.text.isSome = true := by
    intro event inside
    exact (Bool.and_eq_true_iff.mp (mem_filter.mp inside).2).2
  cases last : (textEvents store.events profile.id).getLast? with
  | none => exact getLast?_eq_none_iff.mp last
  | some event =>
    have inside := mem_of_getLast? last
    obtain ⟨line, text⟩ := Option.isSome_iff_exists.mp (texted event inside)
    rw [Option.bind_some, text]
    exact ⟨event, rfl, text, getLast_latest sorted last⟩

/-- After every run with a clock that does not go back, the log is in order, its counts are real and
its sessions are within the limit; the next operation takes only the oldest events of a session that
has too many; an accepted record is in the log that is trimmed; and the summaries report the latest
texts. -/
theorem event_log_kept (log : EventLog) (started : LogInvariant log.store log.clock)
    (inputs : List (DateTime × EventOperation)) (timely : eventLog.StepsMeet EventLog.Timely log inputs) :
    let reached := (eventLog.run log inputs).1
    LogInvariant reached.store reached.clock ∧
      (∀ now operation, reached.Timely (now, operation) →
        LogChange reached.store.events (reached.apply now operation).store.events operation) ∧
      (∀ now event parser, reached.Timely (now, .recordPreparedEvent event parser) →
        (reached.store.recordPreparedEvent event parser).1.isOk = true →
        ∃ recorded, recorded.Perm (event :: reached.store.events) ∧
          (recorded.Pairwise fun first second => first.ts ≤ second.ts) ∧
          TrimsOldest recorded (reached.store.recordPreparedEvent event parser).2.events
            (some event.sessionId)) ∧
      ∀ summary ∈ reached.store.summaries, ReportsLatest reached.store.events summary := by
  intro reached
  have step : ∀ (log : EventLog) (trace : List Empty) (input : DateTime × EventOperation),
      log.Timely input → LogInvariant log.store log.clock →
      LogInvariant (eventLog.step log input).1.store (eventLog.step log input).1.clock := by
    intro log trace input inTime inv
    exact (EventLog.apply_invariant inv input.1 input.2 inTime).1
  have kept : LogInvariant reached.store reached.clock :=
    @Transducer.run_preserves_trace_of _ _ _ eventLog EventLog.Timely
      (fun log _ => LogInvariant log.store log.clock) step log [] inputs timely started
  refine ⟨kept, fun now operation inTime => ?_, fun now event parser inTime accepted => ?_,
    kept.summaries⟩
  · exact (EventLog.apply_invariant kept now operation inTime).2
  · obtain ⟨refused, -⟩ | records := recordPreparedEvent_records reached.store event parser
    · exact absurd (refused.symm.trans accepted) Bool.false_ne_true
    · have added := insertEvent_perm reached.store.events event
      have sorted := insertEvent_sorted kept.sorted event
      exact ⟨_, added, sorted,
        (kept.of_records records added sorted inTime.1 (inTime.2 event parser rfl)).2⟩

theorem logInvariant_of_empty {store : SessionStore} (events : store.events = [])
    (counts : store.eventCounts = []) (clock : DateTime) : LogInvariant store clock := by
  refine ⟨?_, ?_, ?_, ?_⟩
  · rw [events]
    exact .nil
  · rw [events]
    exact fun event none => absurd none not_mem_nil
  · rw [counts]
    exact fun sessionId count none => nomatch none
  · rw [events]
    exact fun sessionId => Nat.zero_le _

def lateEvent : SessionEvent :=
  { systemEvent "event-0" "ssh-session-1" "login:" 1 with direction := .inbound, stream := .stdout }

/-- A system event at 2, then an event that was prepared at 1. -/
def lateInputs : List (DateTime × EventOperation) :=
  [(2, .pushSystemEvent "event-1" "ssh-session-1" "PortMate: connected" .sent),
    (3, .recordPreparedEvent lateEvent 0)]

theorem late_event_kept_in_order :
    LogInvariant (eventLog.run ⟨benchStore, benchSink, 0⟩ lateInputs).1.store
      (eventLog.run ⟨benchStore, benchSink, 0⟩ lateInputs).1.clock := by
  have timely : eventLog.StepsMeet EventLog.Timely ⟨benchStore, benchSink, 0⟩ lateInputs := by
    refine ⟨⟨by decide, nofun⟩, ⟨by decide, fun event parser same => ?_⟩, trivial⟩
    cases same
    decide
  exact (event_log_kept ⟨benchStore, benchSink, 0⟩ (logInvariant_of_empty rfl rfl 0) lateInputs
    timely).1

end PortMate
