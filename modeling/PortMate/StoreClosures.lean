import PortMate.StoreHistories
import PortMate.SystemEvents

namespace PortMate

open SystemEventSinkState

/-- A mutate closure: it reads and edits the store, enqueues system events on the sink that all
clones share, and ends with a result. -/
inductive MutateClosure (α : Type)
  | done (result : Except String α)
  | read (next : SessionStore → MutateClosure α)
  | write (store : SessionStore) (next : MutateClosure α)
  | enqueue (event : SessionEvent) (profile : Option SessionProfile) (answer : TrySend)
      (next : Except String Unit → MutateClosure α)

/-- One run of a closure; `enqueued` are the events of this run that the sink took. -/
structure MutateOutcome (α : Type) where
  result : Except String α
  store : SessionStore
  sink : SystemEventSinkState
  enqueued : List SystemEventEnvelope

def MutateClosure.run {α : Type} :
    MutateClosure α → SessionStore → SystemEventSinkState → MutateOutcome α
  | .done result, store, sink => ⟨result, store, sink, []⟩
  | .read next, store, sink => (next store).run store sink
  | .write store next, _, sink => next.run store sink
  | .enqueue event profile answer next, store, sink =>
    let attempt := (next (sink.enqueue answer event profile).1).run store
      (sink.enqueue answer event profile).2
    { attempt with enqueued := sink.accepted answer event profile ++ attempt.enqueued }

def MutateClosure.bind {α β : Type} :
    MutateClosure α → (α → MutateClosure β) → MutateClosure β
  | .done (.ok value), next => next value
  | .done (.error error), _ => .done (.error error)
  | .read body, next => .read fun store => (body store).bind next
  | .write store body, next => .write store (body.bind next)
  | .enqueue event profile answer body, next =>
    .enqueue event profile answer fun answered => (body answered).bind next

theorem MutateClosure.run_outbox {α : Type} (mutate : MutateClosure α) (store : SessionStore)
    (sink : SystemEventSinkState) :
    (mutate.run store sink).sink.outbox = sink.outbox ++ (mutate.run store sink).enqueued := by
  induction mutate generalizing store sink with
  | done result => simp [run]
  | read next ih => exact ih store store sink
  | write written next ih => exact ih written sink
  | enqueue event profile answer next ih =>
    simp only [run]
    rw [ih, enqueue_outbox, List.append_assoc]

/-- The closure reports the id of every event it got into the outbox. -/
def MutateOutcome.Reports {α : Type} (outcome : MutateOutcome α) (eventIds : List String) : Prop :=
  ∀ envelope ∈ outcome.enqueued, envelope.1.id ∈ eventIds

theorem MutateClosure.run_bind {α β : Type} {mutate : MutateClosure α} {store : SessionStore}
    {sink : SystemEventSinkState} {value : α} (finished : (mutate.run store sink).result = .ok value)
    (next : α → MutateClosure β) :
    (mutate.bind next).run store sink =
      let first := mutate.run store sink
      let second := (next value).run first.store first.sink
      { second with enqueued := first.enqueued ++ second.enqueued } := by
  induction mutate generalizing store sink with
  | done result =>
    simp only [run] at finished
    subst finished
    simp [bind, run]
  | read body ih => exact ih store finished
  | write written body ih => exact ih finished
  | enqueue event profile answer body ih =>
    simp only [run] at finished
    simp only [bind, run, ih _ finished, List.append_assoc]

def maxEventsPerSession : Nat := 5000

def eventTrimBatch : Nat := 512

namespace SessionStore

def profile (store : SessionStore) (sessionId : String) : Option SessionProfile :=
  store.profiles.find? fun profile => profile.id = sessionId

def trimEventsIfNeeded (store : SessionStore) (sessionId : String) : SessionStore :=
  let sessionCount :=
    match store.eventCounts.lookup sessionId with
    | some cached => cached + 1
    | none => store.events.countP fun event => event.sessionId = sessionId
  let otherCounts := store.eventCounts.filter fun entry => entry.1 ≠ sessionId
  if sessionCount ≤ maxEventsPerSession + eventTrimBatch then
    { store with eventCounts := (sessionId, sessionCount) :: otherCounts }
  else
    { store with
      events := dropOldest (fun event => event.sessionId = sessionId)
        (sessionCount - maxEventsPerSession) store.events
      eventCounts := (sessionId, maxEventsPerSession) :: otherCounts }

end SessionStore

def systemEvent (eventId sessionId text : String) (now : DateTime) : SessionEvent where
  id := eventId
  sessionId := sessionId
  paneId := s!"{sessionId}:main"
  ts := now
  direction := .system
  stream := .control
  bytesRef := none
  text := some text
  annotations := []

/-- `push_system_event` with the fresh id, the clock and the notifier's answer. -/
def pushSystemEvent (eventId : String) (now : DateTime) (answer : TrySend)
    (sessionId text : String) : MutateClosure (Option String) :=
  .read fun store =>
    match store.profile sessionId with
    | none => .done (.ok none)
    | some profile =>
      let event := systemEvent eventId sessionId text now
      .enqueue event (some profile) answer fun answered =>
        let recorded :=
          match answered with
          | .ok () => event
          | .error error =>
            { event with annotations := event.annotations.insert "loggingError" error }
        .write
          (({ store with events := store.events ++ [recorded] } : SessionStore).trimEventsIfNeeded
            sessionId)
          (.done (.ok (some eventId)))

theorem accepted_id {sink : SystemEventSinkState} {answer : TrySend} {event : SessionEvent}
    {profile : Option SessionProfile} {envelope : SystemEventEnvelope}
    (taken : envelope ∈ sink.accepted answer event profile) : envelope.1.id = event.id := by
  unfold accepted SystemEventSinkState.enqueue at taken
  cases status : sink.status with
  | inactive => simp [status] at taken
  | failed error => simp [status] at taken
  | active =>
    simp only [status] at taken
    split at taken
    · simp at taken
    · cases answer <;> simp_all

theorem pushSystemEvent_reports (eventId : String) (now : DateTime) (answer : TrySend)
    (sessionId text : String) (store : SessionStore) (sink : SystemEventSinkState) :
    ∃ reported,
      ((pushSystemEvent eventId now answer sessionId text).run store sink).result = .ok reported ∧
      ((pushSystemEvent eventId now answer sessionId text).run store sink).Reports
        reported.toList := by
  cases known : store.profile sessionId with
  | none =>
    refine ⟨none, by simp [pushSystemEvent, MutateClosure.run, known], ?_⟩
    intro envelope taken
    simp [pushSystemEvent, MutateClosure.run, known] at taken
  | some profile =>
    refine ⟨some eventId, by simp [pushSystemEvent, MutateClosure.run, known], ?_⟩
    intro envelope taken
    simp only [pushSystemEvent, MutateClosure.run, known, List.append_nil] at taken
    simp [accepted_id taken, systemEvent]

end PortMate
