import Mathlib.Algebra.GroupWithZero.Nat
import PortMate.KeyedLists
import PortMate.Transducer

namespace PortMate

structure SerialWorkerState where
  active : Nat
  activeBySession : List (String × Nat)
  closingSessions : List String
  deriving DecidableEq

structure SerialWorkerRegistry where
  shuttingDown : Bool
  state : SerialWorkerState
  deriving DecidableEq

namespace SerialWorkerRegistry

/-- The state of the worker's guard is its session. -/
def registerInner (registry : SerialWorkerRegistry) (sessionId : Option String) :
    Except String SerialWorkerRegistry :=
  if registry.shuttingDown then .error "PortMate is shutting down; serial work is not accepted"
  else
    match sessionId with
    | none => .ok { registry with state.active := registry.state.active + 1 }
    | some sessionId =>
      if sessionId ∈ registry.state.closingSessions then
        .error s!"serial session {sessionId} is closing; serial work is not accepted"
      else
        .ok { registry with
          state.active := registry.state.active + 1
          state.activeBySession := upsertEntry sessionId 0 (· + 1) registry.state.activeBySession }

def registerForSession (registry : SerialWorkerRegistry) (sessionId : String) :
    Except String SerialWorkerRegistry :=
  registry.registerInner (some sessionId)

def beginShutdown (registry : SerialWorkerRegistry) : SerialWorkerRegistry :=
  { registry with shuttingDown := true }

def beginSessionShutdown (registry : SerialWorkerRegistry) (sessionId : String) :
    SerialWorkerRegistry :=
  { registry with state.closingSessions := registry.state.closingSessions.insert sessionId }

def endSessionShutdown (registry : SerialWorkerRegistry) (sessionId : String) :
    SerialWorkerRegistry :=
  { registry with
    state.closingSessions := registry.state.closingSessions.filter fun id => id ≠ sessionId }

def activeForSession (registry : SerialWorkerRegistry) (sessionId : String) : Nat :=
  (registry.state.activeBySession.lookup sessionId).getD 0

def dropWorker (registry : SerialWorkerRegistry) (sessionId : Option String) :
    SerialWorkerRegistry :=
  let entries := registry.state.activeBySession
  let others (sessionId : String) := entries.filter fun entry => entry.1 ≠ sessionId
  let activeBySession :=
    match sessionId with
    | none => entries
    | some sessionId =>
      match entries.lookup sessionId with
      | none => entries
      | some active =>
        if active - 1 = 0 then others sessionId else (sessionId, active - 1) :: others sessionId
  { registry with
    state.active := registry.state.active - 1
    state.activeBySession := activeBySession }

end SerialWorkerRegistry

/-- Who owns the barrier of a session: the guard of a close, with whether its wait has ended idle; the
cleanup thread of a close that timed out, with whether it has seen the session idle; or a guard that
was leaked since its thread did not start. -/
inductive SerialClosePhase
  | closing (idle : Bool)
  | cleanup (idle : Bool)
  | leaked
  deriving DecidableEq

structure SerialClose where
  id : Nat
  sessionId : String
  phase : SerialClosePhase
  deriving DecidableEq

/-- The registry with the guards that are alive. -/
structure SerialSessions where
  registry : SerialWorkerRegistry
  workers : List (Nat × String)
  closes : List SerialClose
  nextId : Nat
  deriving DecidableEq

inductive SerialEvent
  | register (sessionId : String)
  | dropWorker (worker : Nat)
  | beginShutdown
  | beginClose (sessionId : String)
  /-- The wait of a guard, or a look of a cleanup thread, finds no worker. -/
  | observeIdle (close : Nat)
  | deferUntilIdle (close : Nat) (spawned : Bool)
  /-- The drop of a guard, or the end of a cleanup thread that has seen no worker. -/
  | endClose (close : Nat)
  deriving DecidableEq

namespace SerialSessions

def initial : SerialSessions := ⟨⟨false, ⟨0, [], []⟩⟩, [], [], 0⟩

def close? (sessions : SerialSessions) (id : Nat) : Option SerialClose :=
  sessions.closes.find? fun close => close.id = id

def setPhase (sessions : SerialSessions) (id : Nat) (phase : SerialClosePhase) : SerialSessions :=
  { sessions with
    closes := sessions.closes.map fun close => if close.id = id then { close with phase } else close }

def register (sessions : SerialSessions) (sessionId : String) : SerialSessions :=
  match sessions.registry.registerForSession sessionId with
  | .error _ => sessions
  | .ok registry =>
    { sessions with
      registry
      workers := (sessions.nextId, sessionId) :: sessions.workers
      nextId := sessions.nextId + 1 }

def dropWorker (sessions : SerialSessions) (worker : Nat) : SerialSessions :=
  match sessions.workers.lookup worker with
  | none => sessions
  | some sessionId =>
    { sessions with
      registry := sessions.registry.dropWorker (some sessionId)
      workers := sessions.workers.filter fun entry => entry.1 ≠ worker }

def beginClose (sessions : SerialSessions) (sessionId : String) : SerialSessions :=
  { sessions with
    registry := sessions.registry.beginSessionShutdown sessionId
    closes := ⟨sessions.nextId, sessionId, .closing false⟩ :: sessions.closes
    nextId := sessions.nextId + 1 }

def observeIdle (sessions : SerialSessions) (id : Nat) : SerialSessions :=
  match sessions.close? id with
  | none => sessions
  | some close =>
    if 0 < sessions.registry.activeForSession close.sessionId then sessions
    else
      match close.phase with
      | .closing _ => sessions.setPhase id (.closing true)
      | .cleanup _ => sessions.setPhase id (.cleanup true)
      | .leaked => sessions

def deferUntilIdle (sessions : SerialSessions) (id : Nat) (spawned : Bool) : SerialSessions :=
  match sessions.close? id with
  | some ⟨_, _, .closing false⟩ =>
    sessions.setPhase id (if spawned then .cleanup false else .leaked)
  | _ => sessions

/-- Whether the owner can end now; a guard is dropped on every path out of its close. -/
def SerialClosePhase.ends : SerialClosePhase → Bool
  | .closing _ => true
  | .cleanup idle => idle
  | .leaked => false

def endClose (sessions : SerialSessions) (id : Nat) : SerialSessions :=
  match sessions.close? id with
  | none => sessions
  | some close =>
    if SerialClosePhase.ends close.phase then
      { sessions with
        registry := sessions.registry.endSessionShutdown close.sessionId
        closes := sessions.closes.filter fun other => other.id ≠ id }
    else sessions

def step (sessions : SerialSessions) : SerialEvent → SerialSessions
  | .register sessionId => sessions.register sessionId
  | .dropWorker worker => sessions.dropWorker worker
  | .beginShutdown => { sessions with registry := sessions.registry.beginShutdown }
  | .beginClose sessionId => sessions.beginClose sessionId
  | .observeIdle close => sessions.observeIdle close
  | .deferUntilIdle close spawned => sessions.deferUntilIdle close spawned
  | .endClose close => sessions.endClose close

end SerialSessions

/-- Any number of sessions, workers and closes, one critical section at a time. -/
def serialSessions : Transducer SerialSessions SerialEvent Unit where
  step sessions event := (sessions.step event, [])

end PortMate
