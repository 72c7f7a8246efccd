import PortMate.InteractiveWriteRuns

namespace PortMate

open List InteractiveQueue

def deferredInteractiveQueueCapacity : Nat := 1024
def deferredInteractiveBatchMaxBytes : Nat := 16 * 1024

def deferredInteractiveInputBoundary (text : String) : Bool :=
  text.toList.any fun character =>
    character = '\r' || character = '\n' || character = '\x03' || character = '\x04'

structure DeferredInteractiveEvent where
  text : String
  wireBytes : List UInt8
  wireByteCount : Nat
  sensitive : Bool
  inputBoundary : Bool
  deriving DecidableEq

/-- What is queued of an input: private text is cleared before that. -/
def deferredInteractiveEvent (input : DeferredInput) : DeferredInteractiveEvent where
  text := if input.sensitive then "" else input.text
  wireBytes := if input.sensitive then [] else input.wireBytes
  wireByteCount := input.wireBytes.length
  sensitive := input.sensitive
  inputBoundary := deferredInteractiveInputBoundary input.text

structure DeferredInteractiveBatch where
  request : DeferredInteractiveEvent
  members : List DeferredInteractiveEvent
  requestCount : Nat := 1

open DeferredInteractiveBatch

namespace DeferredInteractiveBatch

def canAppend (batch : DeferredInteractiveEvent) (request : DeferredInteractiveEvent) : Bool :=
  batch.sensitive == request.sensitive &&
    saturatingAdd batch.wireByteCount request.wireByteCount ≤ deferredInteractiveBatchMaxBytes

/-- The request of the batch with another one joined. -/
def joined (batch request : DeferredInteractiveEvent) : DeferredInteractiveEvent where
  text := batch.text ++ request.text
  wireBytes := batch.wireBytes ++ request.wireBytes
  wireByteCount := saturatingAdd batch.wireByteCount request.wireByteCount
  sensitive := batch.sensitive
  inputBoundary := batch.inputBoundary || request.inputBoundary

def append (batch : DeferredInteractiveBatch) (request : DeferredInteractiveEvent) :
    DeferredInteractiveBatch where
  request := joined batch.request request
  members := batch.members ++ [request]
  requestCount := saturatingAdd batch.requestCount 1

def shouldFlush (batch : DeferredInteractiveBatch) : Bool :=
  deferredInteractiveBatchMaxBytes ≤ batch.request.wireByteCount || batch.request.inputBoundary

end DeferredInteractiveBatch

/-- The arguments with which an input is recorded. -/
structure RecordedInput where
  text : String
  wireBytes : List UInt8
  annotations : List (String × String)
  deriving DecidableEq

def recordSensitiveInteractiveEvent (wireByteCount : Nat) : RecordedInput where
  text := "<private-input>"
  wireBytes := []
  annotations :=
    [("origin", "interactive"), ("sensitive", "true"), ("wireBytes", toString wireByteCount)]

def persistDeferredInteractiveBatch (batch : DeferredInteractiveBatch) : RecordedInput :=
  if batch.request.sensitive then recordSensitiveInteractiveEvent batch.request.wireByteCount
  else ⟨batch.request.text, batch.request.wireBytes, []⟩

structure DeferredInteractiveQueue where
  accepting : Bool := true
  closed : Bool := false
  waiting : List DeferredInteractiveEvent := []
  batch : Option DeferredInteractiveBatch := none
  outstanding : Nat := 0
  accepted : List DeferredInteractiveEvent := []
  flushed : List DeferredInteractiveBatch := []

open DeferredInteractiveQueue

namespace DeferredInteractiveQueue

def persisted (queue : DeferredInteractiveQueue) : List RecordedInput :=
  queue.flushed.map persistDeferredInteractiveBatch

def enqueue (queue : DeferredInteractiveQueue) (input : DeferredInput) : DeferredInteractiveQueue :=
  if !queue.accepting || queue.closed ||
      deferredInteractiveQueueCapacity ≤ queue.waiting.length then queue
  else
    let request := deferredInteractiveEvent input
    { queue with
      waiting := queue.waiting ++ [request]
      outstanding := queue.outstanding + 1
      accepted := queue.accepted ++ [request] }

/-- The batch is persisted and every request of it is complete. -/
def flush (queue : DeferredInteractiveQueue) : DeferredInteractiveQueue :=
  match queue.batch with
  | none => queue
  | some batch =>
    { queue with
      batch := none
      outstanding := queue.outstanding - batch.requestCount
      flushed := queue.flushed ++ [batch] }

def flushIf (queue : DeferredInteractiveQueue) (full : DeferredInteractiveBatch → Bool) :
    DeferredInteractiveQueue :=
  if queue.batch.any full then queue.flush else queue

def append (queue : DeferredInteractiveQueue) (request : DeferredInteractiveEvent) :
    DeferredInteractiveQueue :=
  match queue.batch with
  | some batch => { queue with batch := some (batch.append request) }
  | none => { queue with batch := some { request, members := [request] } }

def receive (queue : DeferredInteractiveQueue) : DeferredInteractiveQueue :=
  match queue.waiting with
  | request :: waiting =>
    (({ queue with waiting }.flushIf fun batch =>
      !DeferredInteractiveBatch.canAppend batch.request request).append request).flushIf
      shouldFlush
  | [] => if queue.closed then queue.flush else queue

end DeferredInteractiveQueue

inductive DeferredEvent
  | enqueue (input : DeferredInput)
  | shutdown
  | closed
  | received

open DeferredEvent

namespace DeferredInteractiveQueue

def step (queue : DeferredInteractiveQueue) : DeferredEvent → DeferredInteractiveQueue
  | .enqueue input => queue.enqueue input
  | .shutdown => { queue with accepting := false }
  | .closed => { queue with closed := true }
  | .received => queue.receive

def run (queue : DeferredInteractiveQueue) (events : List DeferredEvent) : DeferredInteractiveQueue :=
  events.foldl step queue

end DeferredInteractiveQueue

/-- A batch is its first event, and others that it could take. -/
def DeferredInteractiveBatch.Built (batch : DeferredInteractiveBatch) : Prop :=
  Batched id joined
    (fun batch request => DeferredInteractiveBatch.canAppend batch request = true)
    batch.members batch.request

/-- What holds of a batch, whatever it was built from. -/
structure DeferredInteractiveBatch.Whole (batch : DeferredInteractiveBatch) : Prop where
  nonempty : batch.members ≠ []
  text : batch.request.text.toList = batch.members.flatMap fun member => member.text.toList
  wireBytes : batch.request.wireBytes = batch.members.flatMap DeferredInteractiveEvent.wireBytes
  sensitive : ∀ member ∈ batch.members, member.sensitive = batch.request.sensitive

theorem DeferredInteractiveBatch.Built.whole {batch : DeferredInteractiveBatch}
    (built : batch.Built) : batch.Whole where
  nonempty := built.ne_nil
  text := built.content (fun event => event.text.toList) (fun event => event.text.toList)
    (fun _ => rfl) fun _ _ => String.toList_append
  wireBytes := built.content DeferredInteractiveEvent.wireBytes DeferredInteractiveEvent.wireBytes
    (fun _ => rfl) fun _ _ => rfl
  sensitive := built.shared DeferredInteractiveEvent.sensitive DeferredInteractiveEvent.sensitive
    (fun _ => rfl)
    (fun _ _ fits => by
      rw [canAppend, Bool.and_eq_true, beq_iff_eq] at fits
      exact fits.1.symm)
    fun _ _ => rfl

namespace DeferredInteractiveQueue

/-- The events of the batch that is not yet persisted. -/
def inHand (queue : DeferredInteractiveQueue) : List DeferredInteractiveEvent :=
  queue.batch.toList.flatMap DeferredInteractiveBatch.members

/-- Every accepted event is in one place, in its order. -/
structure Sound (queue : DeferredInteractiveQueue) : Prop where
  order : queue.flushed.flatMap DeferredInteractiveBatch.members ++ queue.inHand ++ queue.waiting =
    queue.accepted
  built : ∀ batch ∈ queue.flushed, batch.Built
  current : ∀ batch, queue.batch = some batch → batch.Built

variable {queue : DeferredInteractiveQueue}

theorem flush_sound (sound : queue.Sound) : queue.flush.Sound := by
  unfold flush
  cases present : queue.batch with
  | none => exact sound
  | some batch =>
    have order := sound.order
    rw [inHand, present] at order
    refine ⟨?_, ?_, nofun⟩
    · simpa [inHand] using order
    · intro other mem
      rcases mem_append.mp mem with earlier | last
      · exact sound.built other earlier
      · exact mem_singleton.mp last ▸ sound.current batch present

theorem flushIf_sound (sound : queue.Sound) (full : DeferredInteractiveBatch → Bool) :
    (queue.flushIf full).Sound := by
  unfold flushIf
  split
  · exact flush_sound sound
  · exact sound

theorem flush_waiting (waiting : List DeferredInteractiveEvent) :
    ({ queue with waiting } : DeferredInteractiveQueue).flush = { queue.flush with waiting } := by
  rcases queue with ⟨_, _, _, _ | batch, _, _, _⟩ <;> rfl

variable (full : DeferredInteractiveBatch → Bool)

theorem flushIf_waiting (waiting : List DeferredInteractiveEvent) :
    ({ queue with waiting } : DeferredInteractiveQueue).flushIf full =
      { queue.flushIf full with waiting } := by
  unfold flushIf
  rw [flush_waiting]
  split <;> rfl

theorem flushIf_keeps_waiting : (queue.flushIf full).waiting = queue.waiting := by
  unfold flushIf flush
  split
  · split <;> rfl
  · rfl

theorem flushIf_open {full : DeferredInteractiveBatch → Bool} {batch : DeferredInteractiveBatch}
    (present : (queue.flushIf full).batch = some batch) : full batch = false := by
  unfold flushIf flush at present
  cases current : queue.batch with
  | none => simp [current] at present
  | some other =>
    cases ends : full other with
    | true => simp [current, ends] at present
    | false =>
      simp only [current, Option.any_some, ends, Bool.false_eq_true, if_false, Option.some.injEq] at present
      exact present ▸ ends

theorem append_sound (sound : queue.Sound) {request : DeferredInteractiveEvent}
    {rest : List DeferredInteractiveEvent} (front : queue.waiting = request :: rest)
    (fits : ∀ batch, queue.batch = some batch →
      DeferredInteractiveBatch.canAppend batch.request request = true) :
    (({ queue with waiting := rest } : DeferredInteractiveQueue).append request).Sound := by
  have order := sound.order
  rw [inHand, front] at order
  unfold append
  dsimp only
  cases present : queue.batch with
  | none =>
    rw [present] at order
    refine ⟨?_, sound.built, ?_⟩
    · simpa [inHand] using order
    · rintro batch same
      obtain rfl := Option.some.inj same
      exact .one request
  | some batch =>
    rw [present] at order
    refine ⟨?_, sound.built, ?_⟩
    · simpa [inHand, DeferredInteractiveBatch.append] using order
    · rintro other same
      obtain rfl := Option.some.inj same
      exact .more (sound.current batch present) (fits batch present)

theorem receive_sound (sound : queue.Sound) : queue.receive.Sound := by
  unfold receive
  split
  next request rest front =>
    refine flushIf_sound ?_ _
    rw [flushIf_waiting]
    refine append_sound (flushIf_sound sound _) ?_ fun batch present => ?_
    · rw [flushIf_keeps_waiting, front]
    · exact Bool.not_eq_eq_eq_not.mp (flushIf_open present)
  next =>
    split
    · exact flush_sound sound
    · exact sound

theorem enqueue_sound (sound : queue.Sound) (input : DeferredInput) : (queue.enqueue input).Sound := by
  unfold enqueue
  split
  · exact sound
  · refine ⟨?_, sound.built, sound.current⟩
    have order := sound.order
    simp only [inHand, append_assoc] at order ⊢
    rw [← order]
    simp

theorem step_sound (sound : queue.Sound) (event : DeferredEvent) : (queue.step event).Sound := by
  cases event with
  | enqueue input => exact enqueue_sound sound input
  | shutdown => exact ⟨sound.order, sound.built, sound.current⟩
  | closed => exact ⟨sound.order, sound.built, sound.current⟩
  | received => exact receive_sound sound

theorem run_sound (events : List DeferredEvent) (sound : queue.Sound) : (queue.run events).Sound := by
  induction events generalizing queue with
  | nil => exact sound
  | cons event events ih => exact ih (step_sound sound event)

theorem initial_sound : ({} : DeferredInteractiveQueue).Sound := ⟨rfl, nofun, nofun⟩

end DeferredInteractiveQueue

def DeferredEvent.input? : DeferredEvent → Option DeferredInput
  | .enqueue input => some input
  | _ => none

namespace DeferredInteractiveQueue

variable {queue : DeferredInteractiveQueue}

/-- What a reader of the log is promised after a run. -/
structure Kept (queue : DeferredInteractiveQueue) (events : List DeferredEvent) : Prop where
  order : queue.flushed.flatMap DeferredInteractiveBatch.members ++ queue.inHand ++ queue.waiting =
    queue.accepted
  inputs : ∃ taken : List DeferredInput, taken.Sublist (events.filterMap input?) ∧
    queue.accepted = taken.map deferredInteractiveEvent
  whole : ∀ batch ∈ queue.flushed, batch.Whole
  clear : ∀ batch ∈ queue.flushed, batch.request.sensitive = false →
    persistDeferredInteractiveBatch batch = ⟨batch.request.text, batch.request.wireBytes, []⟩
  secret : ∀ batch ∈ queue.flushed, batch.request.sensitive = true →
    persistDeferredInteractiveBatch batch =
      recordSensitiveInteractiveEvent batch.request.wireByteCount

end DeferredInteractiveQueue

section Samples

end Samples

end PortMate
