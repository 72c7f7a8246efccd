import PortMate.InteractiveWrites

namespace PortMate

open List Bool InteractiveWrite

namespace TakenRequest

def requests : TakenRequest → List InteractiveWriteRequest
  | .skipped request => [request]
  | .batch formed => formed.members

def batch? : TakenRequest → Option WriteBatch
  | .skipped _ => none
  | .batch formed => some formed

end TakenRequest

namespace WriterPhase

/-- The requests of the batch that is still merging. -/
def inHand : WriterPhase → List InteractiveWriteRequest
  | merging batch => batch.members
  | _ => []

def unwritten : WriterPhase → List WriteBatch
  | formed batch | matched batch => [batch]
  | _ => []

def unconfirmed : WriterPhase → List DeferredInput
  | written write => [write.deferredInput]
  | _ => []

end WriterPhase

/-- A batch is its first request, and others that could join. -/
def WriteBatch.Built (batch : WriteBatch) : Prop :=
  Batched id
    (fun batch next => { batch with text := batch.text ++ next.text })
    (fun batch next => batch.coalesce = true ∧
      byteLength batch.text < interactiveWriteBatchMaxBytes ∧ next.joins batch = true)
    batch.members batch.request

/-- What holds of a batch, whatever it was built from. -/
structure WriteBatch.Whole (batch : WriteBatch) : Prop where
  nonempty : batch.members ≠ []
  text : batch.request.text.toList = batch.members.flatMap fun member => member.text.toList
  sensitive : ∀ member ∈ batch.members, member.sensitive = batch.request.sensitive
  runtime : ∀ member ∈ batch.members, member.runtimeId = batch.request.runtimeId
  wireBytes : ∀ member ∈ batch.members, member.wireBytes = batch.request.wireBytes
  completion : ∀ member ∈ batch.members, member.completion = batch.request.completion
  several : 2 ≤ batch.members.length → batch.request.completion = none ∧
    batch.request.wireBytes = none ∧ byteLength batch.request.text ≤ interactiveWriteBatchMaxBytes

theorem joins_iff {next batch : InteractiveWriteRequest} : next.joins batch = true ↔
    ((((((((batch.completion = none ∧ next.completion = none) ∧ next.cancellation = none) ∧
      next.coalesce = true) ∧ next.sensitive = batch.sensitive) ∧ next.wireBytes = none) ∧
      batch.wireBytes = none) ∧ next.runtimeId = batch.runtimeId) ∧
      byteLength next.text ≤ interactiveWriteBatchMaxBytes - byteLength batch.text) := by
  simp only [InteractiveWriteRequest.joins, and_eq_true, Option.isNone_iff_eq_none, beq_iff_eq,
    decide_eq_true_eq]

theorem WriteBatch.Built.whole {batch : WriteBatch} (built : batch.Built) : batch.Whole where
  nonempty := built.ne_nil
  text := built.content (fun request => request.text.toList) (fun request => request.text.toList)
    (fun _ => rfl) fun batch next => String.toList_append
  sensitive := built.shared InteractiveWriteRequest.sensitive InteractiveWriteRequest.sensitive
    (fun _ => rfl) (fun _ _ fits => (joins_iff.mp fits.2.2).1.1.1.1.2) fun _ _ => rfl
  runtime := built.shared InteractiveWriteRequest.runtimeId InteractiveWriteRequest.runtimeId
    (fun _ => rfl) (fun _ _ fits => (joins_iff.mp fits.2.2).1.2) fun _ _ => rfl
  wireBytes := built.shared InteractiveWriteRequest.wireBytes InteractiveWriteRequest.wireBytes
    (fun _ => rfl)
    (fun _ _ fits => by
      obtain ⟨⟨⟨⟨-, next⟩, batch⟩, -⟩, -⟩ := joins_iff.mp fits.2.2
      rw [next, batch])
    fun _ _ => rfl
  completion := built.shared InteractiveWriteRequest.completion InteractiveWriteRequest.completion
    (fun _ => rfl)
    (fun _ _ fits => by
      obtain ⟨⟨⟨⟨⟨⟨⟨⟨batch, next⟩, -⟩, -⟩, -⟩, -⟩, -⟩, -⟩, -⟩ := joins_iff.mp fits.2.2
      rw [next, batch])
    fun _ _ => rfl
  several two := by
    refine ⟨?_, ?_, ?_⟩
    · exact built.crowded (fun request => request.completion = none)
        (fun _ _ fits => by
          obtain ⟨⟨⟨⟨⟨⟨⟨⟨batch, -⟩, -⟩, -⟩, -⟩, -⟩, -⟩, -⟩, -⟩ := joins_iff.mp fits.2.2
          exact batch)
        (fun _ _ alone => alone) two
    · exact built.crowded (fun request => request.wireBytes = none)
        (fun _ _ fits => (joins_iff.mp fits.2.2).1.1.2) (fun _ _ alone => alone) two
    · exact built.bounded (fun request => byteLength request.text)
        (fun batch next fits => by
          have small := (joins_iff.mp fits.2.2).2
          have room := fits.2.1
          dsimp only
          rw [byteLength_append]
          omega)
        two

namespace InteractiveQueue

/-- Every accepted request is in one place, in its order, and nothing is written twice. -/
structure Sound (queue : InteractiveQueue) : Prop where
  order : queue.taken.flatMap TakenRequest.requests ++ queue.phase.inHand ++
    queue.pending.toList ++ queue.waiting = queue.accepted
  alone : ∀ batch, queue.phase = .merging batch → queue.pending = none
  merging : ∀ batch, queue.phase = .merging batch → batch.Built
  built : ∀ batch, .batch batch ∈ queue.taken → batch.Built
  skipped : ∀ request, .skipped request ∈ queue.taken → queue.flagged request.cancellation = true
  writes : (queue.writes.map InteractiveWrite.batch ++ queue.phase.unwritten).Sublist
    (queue.taken.filterMap TakenRequest.batch?)
  deferred : (queue.deferred ++ queue.phase.unconfirmed).Sublist
    (queue.writes.map deferredInput)
  runtimes : ∀ write ∈ queue.writes, write.runtime.runtimeId = write.batch.request.runtimeId
  wires : ∀ write ∈ queue.writes, ∀ bytes, write.batch.request.wireBytes = some bytes →
    write.wire = bytes

variable {queue : InteractiveQueue}

theorem initial_sound : ({} : InteractiveQueue).Sound where
  order := rfl
  alone := nofun
  merging := nofun
  built := nofun
  skipped := nofun
  writes := List.Sublist.refl _
  deferred := List.Sublist.refl _
  runtimes := nofun
  wires := nofun

theorem next_order {first : InteractiveWriteRequest} {rest : InteractiveQueue}
    (found : queue.next = some (first, rest)) :
    queue.pending.toList ++ queue.waiting = first :: rest.waiting ∧
      rest = { queue with waiting := rest.waiting, pending := none } := by
  unfold next at found
  split at found
  next request waiting pending =>
    cases found
    rw [pending]
    exact ⟨rfl, rfl⟩
  next request waiting pending front =>
    cases found
    rw [pending, front]
    exact ⟨rfl, by simp⟩
  next => cases found

theorem writerFor_runtimeId {runtimes : SessionRuntimes} {runtimeId : String}
    {runtime : InstalledRuntime} (found : runtimes.writerFor runtimeId = some runtime) :
    runtime ∈ runtimes.installed ∧ runtime.runtimeId = runtimeId :=
  ⟨mem_of_find?_eq_some found, by simpa using find?_some found⟩

section Steps

variable (sound : queue.Sound)

include sound

theorem Sound.moved {next : InteractiveQueue} (waiting : next.waiting = queue.waiting)
    (pending : next.pending = queue.pending) (accepted : next.accepted = queue.accepted)
    (taken : next.taken = queue.taken) (writes : next.writes = queue.writes)
    (deferred : next.deferred = queue.deferred) (flags : next.flags = queue.flags)
    (idle : queue.phase.inHand = []) (inHand : next.phase.inHand = [])
    (merging : ∀ batch, next.phase ≠ .merging batch)
    (unwritten : next.phase.unwritten.Sublist queue.phase.unwritten)
    (unconfirmed : next.phase.unconfirmed.Sublist queue.phase.unconfirmed) : next.Sound where
  order := by
    have order := sound.order
    rw [idle] at order
    rw [inHand, waiting, pending, accepted, taken]
    exact order
  alone batch same := absurd same (merging batch)
  merging batch same := absurd same (merging batch)
  built := by rw [taken]; exact sound.built
  skipped request mem := by
    rw [taken] at mem
    rw [flagged, flags]
    exact sound.skipped request mem
  writes := by
    rw [writes, taken]
    exact ((List.Sublist.refl _).append unwritten).trans sound.writes
  deferred := by
    rw [deferred, writes]
    exact ((List.Sublist.refl _).append unconfirmed).trans sound.deferred
  runtimes := by rw [writes]; exact sound.runtimes
  wires := by rw [writes]; exact sound.wires

theorem Sound.answered (completion : Option Nat) (result : Except String Unit) :
    (queue.answer completion result).Sound :=
  ⟨sound.order, sound.alone, sound.merging, sound.built, sound.skipped, sound.writes,
    sound.deferred, sound.runtimes, sound.wires⟩

theorem Sound.reported (completion : Option Nat) (error : String) :
    (queue.report completion error).Sound :=
  ⟨sound.order, sound.alone, sound.merging, sound.built, sound.skipped, sound.writes,
    sound.deferred, sound.runtimes, sound.wires⟩

theorem Sound.flagSet (flag : Nat) : Sound { queue with flags := flag :: queue.flags } where
  order := sound.order
  alone := sound.alone
  merging := sound.merging
  built := sound.built
  skipped request mem := by
    have set := sound.skipped request mem
    rw [flagged, Option.any_eq_true] at set ⊢
    obtain ⟨own, same, set⟩ := set
    exact ⟨own, same, by simp [contains_iff_mem.mp set]⟩
  writes := sound.writes
  deferred := sound.deferred
  runtimes := sound.runtimes
  wires := sound.wires

theorem Sound.queued (request : InteractiveWriteRequest) :
    Sound { queue with
      waiting := queue.waiting ++ [request], accepted := queue.accepted ++ [request] } where
  order := by
    have order := sound.order
    simp only [← order, append_assoc]
  alone := sound.alone
  merging := sound.merging
  built := sound.built
  skipped := sound.skipped
  writes := sound.writes
  deferred := sound.deferred
  runtimes := sound.runtimes
  wires := sound.wires

theorem enqueue_sound (runtimes : SessionRuntimes) (payload : InteractivePayload) :
    (queue.enqueueInteractivePayload runtimes payload).2.Sound := by
  unfold enqueueInteractivePayload
  repeat' split
  all_goals first
    | exact sound
    | exact sound.answered payload.completion _
    | exact sound.queued _

theorem begin_sound (idle : queue.phase = .waiting) {first : InteractiveWriteRequest}
    {rest : InteractiveQueue} (found : queue.next = some (first, rest)) :
    (rest.begin first).Sound := by
  obtain ⟨front, same⟩ := next_order found
  generalize rest.waiting = waiting at front same
  subst same
  have order := sound.order
  rw [idle, append_assoc, front] at order
  have writes := sound.writes
  have deferred := sound.deferred
  rw [idle] at writes deferred
  unfold begin
  split
  next gone =>
    refine ⟨?_, nofun, nofun, ?_, ?_, ?_, deferred, sound.runtimes, sound.wires⟩
    · simpa [WriterPhase.inHand, TakenRequest.requests, answer] using order
    · intro batch mem
      rcases mem_append.mp mem with earlier | last
      · exact sound.built batch earlier
      · exact absurd (mem_singleton.mp last) nofun
    · intro request mem
      rcases mem_append.mp mem with earlier | last
      · exact sound.skipped request earlier
      · obtain rfl := TakenRequest.skipped.inj (mem_singleton.mp last)
        exact gone
    · have none : [TakenRequest.skipped first].filterMap TakenRequest.batch? = [] := rfl
      rw [filterMap_append, none, append_nil]
      exact writes
  next =>
    refine ⟨?_, fun _ _ => rfl, ?_, sound.built, sound.skipped, writes, deferred, sound.runtimes,
      sound.wires⟩
    · simpa [WriterPhase.inHand] using order
    · rintro batch same
      obtain rfl := WriterPhase.merging.inj same
      exact .one first

theorem idle_sound (idle : queue.phase = .top ∨ queue.phase = .waiting) :
    Sound { queue with phase := if queue.cancelled then .stopped else .waiting } := by
  have nothing : queue.phase.inHand = [] := by rcases idle with same | same <;> rw [same] <;> rfl
  cases queue.cancelled with
  | true =>
    exact sound.moved rfl rfl rfl rfl rfl rfl rfl nothing rfl nofun (nil_sublist _)
      (nil_sublist _)
  | false =>
    exact sound.moved rfl rfl rfl rfl rfl rfl rfl nothing rfl nofun (nil_sublist _)
      (nil_sublist _)

theorem turn_sound (receives : Bool) : (queue.turn receives).Sound := by
  unfold turn
  split
  next same => exact idle_sound sound (.inl same)
  next same =>
    split
    next first rest found => exact begin_sound sound same found
    next => exact sound
  next same => exact idle_sound sound (.inr same)
  next => exact sound

theorem drain_sound {batch : WriteBatch} (merging : queue.phase = .merging batch) :
    (queue.drain batch).Sound := by
  have alone := sound.alone batch merging
  have built := sound.merging batch merging
  have order := sound.order
  have writes := sound.writes
  have deferred := sound.deferred
  rw [merging] at order writes deferred
  rw [alone] at order
  have formed : ∀ (waiting : List InteractiveWriteRequest) (pending : Option InteractiveWriteRequest),
      pending.toList ++ waiting = queue.waiting →
      Sound { queue with
        phase := .formed batch, taken := queue.taken ++ [.batch batch], waiting, pending } := by
    intro waiting pending rest
    refine ⟨?_, nofun, nofun, ?_, ?_, ?_, deferred, sound.runtimes, sound.wires⟩
    · simpa [WriterPhase.inHand, TakenRequest.requests, rest] using order
    · intro other mem
      rcases mem_append.mp mem with earlier | last
      · exact sound.built other earlier
      · obtain rfl := TakenRequest.batch.inj (mem_singleton.mp last)
        exact built
    · intro request mem
      rcases mem_append.mp mem with earlier | last
      · exact sound.skipped request earlier
      · exact absurd (mem_singleton.mp last) nofun
    · rw [filterMap_append]
      simp only [WriterPhase.unwritten, append_nil] at writes ⊢
      exact writes.append (List.Sublist.refl _)
  unfold drain
  dsimp only
  split
  next room =>
    rw [and_eq_true, and_eq_true, decide_eq_true_eq] at room
    split
    next front => exact formed queue.waiting queue.pending (by rw [alone]; rfl)
    next next waiting front =>
      split
      next joins =>
        refine ⟨?_, fun _ _ => alone, ?_, sound.built, sound.skipped, writes, deferred,
          sound.runtimes, sound.wires⟩
        · rw [front] at order
          simpa [WriterPhase.inHand, alone] using order
        · rintro batch' same
          obtain rfl := WriterPhase.merging.inj same
          exact .more built ⟨room.1.1, room.1.2, joins⟩
      next => exact formed waiting (some next) (by rw [front]; rfl)
  next => exact formed queue.waiting queue.pending (by rw [alone]; rfl)

theorem stop_sound {phase : WriterPhase} (nothing : queue.phase.inHand = [])
    (ended : phase = .top ∨ phase = .stopped) : Sound { queue with phase } := by
  rcases ended with rfl | rfl
  · exact sound.moved rfl rfl rfl rfl rfl rfl rfl nothing rfl nofun (nil_sublist _)
      (nil_sublist _)
  · exact sound.moved rfl rfl rfl rfl rfl rfl rfl nothing rfl nofun (nil_sublist _)
      (nil_sublist _)

theorem refuse_sound (nothing : queue.phase.inHand = []) (batch : WriteBatch) (error : String) :
    (queue.refuse batch error).Sound :=
  stop_sound (sound.reported batch.request.completion error) nothing (.inl rfl)

theorem dropStale_sound (nothing : queue.phase.inHand = []) (batch : WriteBatch) :
    (queue.dropStale batch).Sound :=
  stop_sound (sound.answered batch.request.completion _) nothing (.inl rfl)

theorem check_sound {batch : WriteBatch} (formed : queue.phase = .formed batch) :
    (queue.check batch).Sound := by
  have nothing : queue.phase.inHand = [] := by rw [formed]; rfl
  unfold check
  split
  · exact stop_sound (sound.answered batch.request.completion _) nothing (.inr rfl)
  · split
    next current same =>
      split
      · refine sound.moved rfl rfl rfl rfl rfl rfl rfl nothing rfl nofun ?_ (nil_sublist _)
        rw [formed]
        exact List.Sublist.refl _
      · exact dropStale_sound sound nothing batch
    next => exact dropStale_sound sound nothing batch
    next error failed => exact refuse_sound sound nothing batch error

theorem Sound.wrote {batch : WriteBatch} (matched : queue.phase = .matched batch)
    {write : InteractiveWrite} (same : write.batch = batch)
    (runtime : write.runtime.runtimeId = batch.request.runtimeId)
    (wire : ∀ bytes, batch.request.wireBytes = some bytes → write.wire = bytes) :
    Sound { queue with writes := queue.writes ++ [write], phase := .written write } := by
  subst same
  have order := sound.order
  have writes := sound.writes
  have deferred := sound.deferred
  rw [matched] at order writes deferred
  refine ⟨order, nofun, nofun, sound.built, sound.skipped, ?_, ?_, ?_, ?_⟩
  · simpa [WriterPhase.unwritten] using writes
  · rw [map_append]
    simp only [WriterPhase.unconfirmed, append_nil] at deferred ⊢
    exact deferred.append (List.Sublist.refl _)
  · intro other mem
    rcases mem_append.mp mem with earlier | last
    · exact sound.runtimes other earlier
    · obtain rfl := mem_singleton.mp last
      exact runtime
  · intro other mem
    rcases mem_append.mp mem with earlier | last
    · exact sound.wires other earlier
    · obtain rfl := mem_singleton.mp last
      exact wire

theorem write_sound {batch : WriteBatch} (matched : queue.phase = .matched batch)
    (encoded : List UInt8) (failure : Option String) :
    (queue.write batch encoded failure).Sound := by
  have nothing : queue.phase.inHand = [] := by rw [matched]; rfl
  unfold write
  split
  · exact refuse_sound sound nothing batch _
  · split
    · exact refuse_sound sound nothing batch _
    · split
      next => exact refuse_sound sound nothing batch _
      next runtime found =>
        have wrote := @Sound.wrote queue sound batch matched
          ⟨runtime, batch, batch.request.wireBytes.getD encoded⟩ rfl (writerFor_runtimeId found).2
          fun bytes same => by rw [same]; rfl
        dsimp only
        split
        next error => exact refuse_sound wrote rfl batch error
        next => exact wrote

theorem confirm_sound {write : InteractiveWrite} (written : queue.phase = .written write) :
    (queue.confirm write).Sound := by
  have nothing : queue.phase.inHand = [] := by rw [written]; rfl
  unfold confirm
  split
  · have order := sound.order
    have writes := sound.writes
    have deferred := sound.deferred
    rw [written] at order writes deferred
    refine ⟨order, nofun, nofun, sound.built, sound.skipped, writes, ?_, sound.runtimes, sound.wires⟩
    simpa [answer, WriterPhase.unconfirmed] using deferred
  · exact refuse_sound sound nothing write.batch _

theorem step_sound (event : WriterEvent) : (queue.step event).Sound := by
  cases event with
  | enqueue runtimes payload => exact enqueue_sound sound runtimes payload
  | runtimesChanged runtimes =>
    exact ⟨sound.order, sound.alone, sound.merging, sound.built, sound.skipped, sound.writes,
      sound.deferred, sound.runtimes, sound.wires⟩
  | flagSet flag => exact sound.flagSet flag
  | shutdown =>
    exact ⟨sound.order, sound.alone, sound.merging, sound.built, sound.skipped, sound.writes,
      sound.deferred, sound.runtimes, sound.wires⟩
  | cleared =>
    exact ⟨sound.order, sound.alone, sound.merging, sound.built, sound.skipped, sound.writes,
      sound.deferred, sound.runtimes, sound.wires⟩
  | turn receives => exact turn_sound sound receives
  | drain =>
    rw [step]
    split
    next batch merging => exact drain_sound sound merging
    next => exact sound
  | check =>
    rw [step]
    split
    next batch formed => exact check_sound sound formed
    next => exact sound
  | write encoded failure =>
    rw [step]
    split
    next batch matched => exact write_sound sound matched encoded failure
    next => exact sound
  | confirm =>
    rw [step]
    split
    next write written => exact confirm_sound sound written
    next => exact sound

end Steps

theorem run_sound (events : List WriterEvent) (sound : queue.Sound) : (queue.run events).Sound := by
  induction events generalizing queue with
  | nil => exact sound
  | cons event events ih => exact ih (step_sound sound event)

/-- What a reader of the queue is promised after any run. -/
structure Kept (queue : InteractiveQueue) : Prop where
  order : queue.taken.flatMap TakenRequest.requests ++ queue.phase.inHand ++
    queue.pending.toList ++ queue.waiting = queue.accepted
  whole : ∀ batch, .batch batch ∈ queue.taken → batch.Whole
  skipped : ∀ request, .skipped request ∈ queue.taken → queue.flagged request.cancellation = true
  writes : (queue.writes.map InteractiveWrite.batch).Sublist
    (queue.taken.filterMap TakenRequest.batch?)
  runtimes : ∀ write ∈ queue.writes, write.runtime.runtimeId = write.batch.request.runtimeId
  wires : ∀ write ∈ queue.writes, ∀ bytes, write.batch.request.wireBytes = some bytes →
    write.wire = bytes
  deferred : queue.deferred.Sublist (queue.writes.map deferredInput)

theorem Sound.kept (sound : queue.Sound) : queue.Kept where
  order := sound.order
  whole batch mem := (sound.built batch mem).whole
  skipped := sound.skipped
  writes := (sublist_append_left _ _).trans sound.writes
  runtimes := sound.runtimes
  wires := sound.wires
  deferred := (sublist_append_left _ _).trans sound.deferred

section Replaced

/-- The writes and the registry, which most steps leave alone. -/
def outside (queue : InteractiveQueue) : List InteractiveWrite × SessionRuntimes :=
  (queue.writes, queue.runtimes)

variable (batch : WriteBatch)

end Replaced

section Withdrawn

/-- What a step may do to the writes: none is taken back, and a new one is of a batch whose caller
has not given up. -/
structure Books (queue next : InteractiveQueue) : Prop where
  flags : queue.flags ⊆ next.flags
  writes : next.writes = queue.writes ∨ ∃ write : InteractiveWrite,
    queue.flagged write.batch.request.cancellation = false ∧
      next.writes = queue.writes ++ [write]

theorem Books.same {next : InteractiveQueue} (flags : next.flags = queue.flags)
    (writes : next.writes = queue.writes) : Books queue next :=
  ⟨fun _ => flags ▸ id, .inl writes⟩

theorem Books.kept {next : InteractiveQueue} (books : Books queue next) :
    queue.writes ⊆ next.writes := by
  rcases books.writes with same | ⟨write, -, more⟩
  · rw [same]
    exact fun _ => id
  · exact more ▸ subset_append_left _ _

theorem turn_books (receives : Bool) : Books queue (queue.turn receives) := by
  unfold turn
  split
  · exact .same rfl rfl
  · split
    next first rest found =>
      rw [(next_order found).2]
      unfold begin
      split <;> exact .same rfl rfl
    next => exact .same rfl rfl
  · exact .same rfl rfl
  · exact .same rfl rfl

theorem write_books (batch : WriteBatch) (encoded : List UInt8) (failure : Option String) :
    Books queue (queue.write batch encoded failure) := by
  unfold write
  split
  next => exact .same rfl rfl
  next =>
    split
    next => exact .same rfl rfl
    next waits =>
      split
      next => exact .same rfl rfl
      next runtime found =>
        dsimp only
        split <;> exact ⟨fun _ => id, .inr ⟨_, not_eq_true _ ▸ waits, rfl⟩⟩

theorem step_books (event : WriterEvent) : Books queue (queue.step event) := by
  cases event with
  | flagSet flag => exact ⟨subset_cons_self _ _, .inl rfl⟩
  | turn receives => exact turn_books receives
  | write encoded failure =>
    rw [step]
    split
    next batch matched => exact write_books batch encoded failure
    next => exact .same rfl rfl
  | _ =>
    simp only [step, enqueueInteractivePayload, drain, check, confirm]
    repeat' split
    all_goals exact .same rfl rfl

/-- The write carries a text of a caller that may give up by this flag. -/
def carries (flag : Nat) (write : InteractiveWrite) : Bool :=
  write.batch.members.any fun member => member.cancellation = some flag

/-- Only the first request of a batch can have a flag. -/
theorem carries_first {batch : WriteBatch} (built : batch.Built) {member : InteractiveWriteRequest}
    (mem : member ∈ batch.members) {flag : Nat} (own : member.cancellation = some flag) :
    batch.request.cancellation = some flag := by
  unfold WriteBatch.Built at built
  generalize batch.members = members at built mem
  generalize batch.request = request at built
  induction built with
  | one item =>
    obtain rfl := mem_singleton.mp mem
    exact own
  | more built room ih =>
    rcases mem_append.mp mem with earlier | last
    · exact ih earlier
    · obtain rfl := mem_singleton.mp last
      simp [(joins_iff.mp room.2.2).1.1.1.1.1.1.2] at own

theorem Sound.written_built (sound : queue.Sound) {write : InteractiveWrite}
    (mem : write ∈ queue.writes) : write.batch.Built := by
  have taken : write.batch ∈ queue.taken.filterMap TakenRequest.batch? :=
    sound.writes.subset (mem_append_left _ (mem_map_of_mem mem))
  obtain ⟨_ | formed, inTaken, isBatch⟩ := mem_filterMap.mp taken
  · cases isBatch
  · obtain rfl : formed = write.batch := Option.some.inj isBatch
    exact sound.built _ inTaken

theorem run_withdrawn {flag : Nat} (events : List WriterEvent) (sound : queue.Sound)
    (set : flag ∈ queue.flags) :
    (queue.run events).writes.filter (carries flag) = queue.writes.filter (carries flag) := by
  induction events generalizing queue with
  | nil => rfl
  | cons event events ih =>
    have books : Books queue (queue.step event) := step_books event
    have after := step_sound sound event
    refine (@ih (queue.step event) after (books.flags set)).trans ?_
    rcases books.writes with same | ⟨write, waits, more⟩
    · rw [same]
    · have others : ¬carries flag write = true := by
        intro carried
        obtain ⟨member, mem, own⟩ := any_eq_true.mp carried
        have first := carries_first (after.written_built (by simp [more])) mem
          (of_decide_eq_true own)
        simp [flagged, first, set] at waits
      rw [more, List.filter_append, filter_cons_of_neg others, filter_nil,
        append_nil]

/-- Only the confirmation of a write tells a caller that all went well. -/
theorem step_answers (event : WriterEvent) :
    (∀ ticket, (ticket, .ok ()) ∈ (queue.step event).answers →
      (ticket, .ok ()) ∈ queue.answers ∨
        ∃ write, queue.phase = .written write ∧ write.batch.request.completion = some ticket) ∧
      ∀ write, (queue.step event).phase = .written write →
        queue.phase = .written write ∨ write ∈ (queue.step event).writes := by
  cases event with
  | turn receives =>
    simp only [step, turn]
    split
    · split <;> simp +contextual
    · split
      next first rest found =>
        rw [(next_order found).2]
        unfold begin
        split <;> simp +contextual [answer]
      next => simp +contextual
    · split <;> simp +contextual
    · simp +contextual
  | _ =>
    simp only [step, enqueueInteractivePayload, drain, check, write, confirm, refuse, dropStale,
      report]
    repeat' split
    all_goals simp +contextual [answer, *]

/-- Who is told that all went well has been written. -/
structure Told (queue : InteractiveQueue) : Prop where
  written : ∀ write, queue.phase = .written write → write ∈ queue.writes
  told : ∀ ticket, (ticket, .ok ()) ∈ queue.answers →
    ∃ write ∈ queue.writes, write.batch.request.completion = some ticket

theorem initial_told : ({} : InteractiveQueue).Told where
  written := nofun
  told := nofun

theorem run_told (events : List WriterEvent) (told : queue.Told) : (queue.run events).Told := by
  induction events generalizing queue with
  | nil => exact told
  | cons event events ih =>
    have kept : queue.writes ⊆ (queue.step event).writes := (step_books event).kept
    obtain ⟨answers, phase⟩ := @step_answers queue event
    refine @ih (queue.step event) ⟨fun write at' => ?_, fun ticket mem => ?_⟩
    · exact (phase write at').elim (fun before => kept (told.written write before)) id
    · rcases answers ticket mem with before | ⟨write, at', own⟩
      · obtain ⟨write, mem, own⟩ := told.told ticket before
        exact ⟨write, kept mem, own⟩
      · exact ⟨write, kept (told.written write at'), own⟩

end Withdrawn

/-- Whatever came before and comes after: what its caller has given up takes no writer any more, and
who is told that his text was written, it was, alone and to the connection it was meant for. -/
theorem withdrawn_input_unwritten (before after : List WriterEvent) (flag : Nat) :
    let queue := ({} : InteractiveQueue).run before
    (queue.run (.flagSet flag :: after)).writes.filter (carries flag) =
        queue.writes.filter (carries flag) ∧
      ∀ ticket, (ticket, .ok ()) ∈ queue.answers →
        ∃ write ∈ queue.writes, ∃ request, write.batch.members = [request] ∧
          request.completion = some ticket ∧ write.runtime.runtimeId = request.runtimeId := by
  intro queue
  have sound : queue.Sound := run_sound before initial_sound
  refine ⟨@run_withdrawn (queue.step (.flagSet flag)) flag after
    (step_sound sound (.flagSet flag)) mem_cons_self, fun ticket mem => ?_⟩
  have told : queue.Told := run_told before initial_told
  obtain ⟨write, written, own⟩ := told.told ticket mem
  have whole := (sound.written_built written).whole
  have single : write.batch.members.length < 2 := by
    by_contra two
    rw [(whole.several (Nat.le_of_not_lt two)).1] at own
    cases own
  obtain ⟨request, alone⟩ := length_eq_one_iff.mp (Nat.le_antisymm (Nat.le_of_lt_succ single)
    (length_pos_iff.mpr whole.nonempty))
  have inside : request ∈ write.batch.members := alone ▸ mem_singleton_self request
  exact ⟨write, written, request, alone, (whole.completion request inside).trans own,
    (sound.runtimes write written).trans (whole.runtime request inside).symm⟩

end InteractiveQueue

end PortMate
