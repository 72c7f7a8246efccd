import PortMate.SessionModels

namespace PortMate

def maxSystemEventOutbox : Nat := 4096

abbrev SystemEventEnvelope := SessionEvent × Option SessionProfile

inductive SystemEventSinkStatus
  | inactive
  | active
  | failed (error : String)
  deriving DecidableEq

structure SystemEventSinkState where
  status : SystemEventSinkStatus
  outbox : List SystemEventEnvelope
  deriving DecidableEq

/-- What `try_send` on the notifier answers; the worker can disconnect at any time. -/
inductive TrySend
  | sent | full | disconnected
  deriving DecidableEq

namespace SystemEventSinkState

def workerDisconnected : String := "system event sink worker disconnected"

def setNotifier (sink : SystemEventSinkState) (answer : TrySend) :
    Except String Unit × SystemEventSinkState :=
  if !sink.outbox.isEmpty && answer = .disconnected then
    (.error workerDisconnected, { sink with status := .failed workerDisconnected })
  else (.ok (), { sink with status := .active })

def clearNotifier (sink : SystemEventSinkState) : SystemEventSinkState :=
  { sink with status := .inactive }

def enqueue (sink : SystemEventSinkState) (answer : TrySend) (event : SessionEvent)
    (profile : Option SessionProfile) : Except String Unit × SystemEventSinkState :=
  match sink.status with
  | .inactive => (.ok (), sink)
  | .failed error => (.error error, sink)
  | .active =>
    if sink.outbox.length ≥ maxSystemEventOutbox then
      (.error s!"system event sink backlog exceeded {maxSystemEventOutbox} events", sink)
    else
      match answer with
      | .sent | .full => (.ok (), { sink with outbox := sink.outbox ++ [(event, profile)] })
      | .disconnected =>
        (.error workerDisconnected, { sink with status := .failed workerDisconnected })

def drain (sink : SystemEventSinkState) : List SystemEventEnvelope × SystemEventSinkState :=
  (sink.outbox, { sink with outbox := [] })

def discardSession (sink : SystemEventSinkState) (sessionId : String) : SystemEventSinkState :=
  { sink with outbox := sink.outbox.filter fun envelope => envelope.1.sessionId ≠ sessionId }

def discardEvent (sink : SystemEventSinkState) (eventId : String) : SystemEventSinkState :=
  { sink with outbox := sink.outbox.filter fun envelope => envelope.1.id ≠ eventId }

/-- What one call of `enqueue` leaves pending: the event, or nothing. -/
def accepted (sink : SystemEventSinkState) (answer : TrySend) (event : SessionEvent)
    (profile : Option SessionProfile) : List SystemEventEnvelope :=
  (sink.enqueue answer event profile).2.outbox.drop sink.outbox.length

variable (sink : SystemEventSinkState)

theorem enqueue_outbox (answer : TrySend) (event : SessionEvent) (profile : Option SessionProfile) :
    (sink.enqueue answer event profile).2.outbox =
      sink.outbox ++ sink.accepted answer event profile := by
  unfold accepted enqueue
  cases sink.status with
  | inactive => simp
  | failed error => simp
  | active =>
    dsimp only
    split
    · simp
    · cases answer <;> simp

theorem enqueue_outbox_length_le {sink : SystemEventSinkState}
    (bounded : sink.outbox.length ≤ maxSystemEventOutbox) (answer : TrySend)
    (event : SessionEvent) (profile : Option SessionProfile) :
    (sink.enqueue answer event profile).2.outbox.length ≤ maxSystemEventOutbox := by
  unfold enqueue
  cases sink.status with
  | inactive => exact bounded
  | failed error => exact bounded
  | active =>
    dsimp only
    split
    next => exact bounded
    next room => cases answer <;> simp <;> omega

@[simp] theorem discardEvent_outbox (eventId : String) :
    (sink.discardEvent eventId).outbox =
      sink.outbox.filter fun envelope => envelope.1.id ≠ eventId := rfl

/-- `for event_id in &event_ids { store.discard_queued_system_event(event_id) }`. -/
def discardEvents (sink : SystemEventSinkState) (eventIds : List String) : SystemEventSinkState :=
  eventIds.foldl discardEvent sink

theorem discardEvents_outbox (eventIds : List String) :
    (sink.discardEvents eventIds).outbox =
      sink.outbox.filter fun envelope => envelope.1.id ∉ eventIds := by
  unfold discardEvents
  induction eventIds generalizing sink with
  | nil => simp
  | cons eventId rest ih =>
    rw [List.foldl_cons, ih, discardEvent_outbox, List.filter_filter]
    congr 1
    funext envelope
    simp [Bool.and_comm]

end SystemEventSinkState

end PortMate
