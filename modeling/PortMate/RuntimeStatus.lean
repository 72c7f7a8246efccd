import PortMate.EventLog
import PortMate.HeldSince

namespace PortMate

def maxSessionDisconnectReasonCharacters : Nat := 256

/-- The loop of `normalize_session_disconnect_reason`: the characters kept so far, and at the end
whether some were cut off. -/
def reasonCharacters (pendingSpace : Bool) (normalized : List Char) :
    List Char → List Char × Bool
  | [] => (normalized, false)
  | c :: rest =>
    if isRustWhitespace c then reasonCharacters (!normalized.isEmpty) normalized rest
    else if pendingSpace then
      if normalized.length = maxSessionDisconnectReasonCharacters then (normalized, true)
      else if normalized.length + 1 = maxSessionDisconnectReasonCharacters then
        (normalized ++ [' '], true)
      else reasonCharacters false (normalized ++ [' ', c]) rest
    else if normalized.length = maxSessionDisconnectReasonCharacters then (normalized, true)
    else reasonCharacters false (normalized ++ [c]) rest

def normalizeSessionDisconnectReason (value : String) : Option String :=
  let (normalized, truncated) := reasonCharacters false [] value.toList
  if normalized.isEmpty then none
  else if truncated then
    some (String.ofList (normalized.take (maxSessionDisconnectReasonCharacters - 3) ++
      ['.', '.', '.']))
  else some (String.ofList normalized)

def runtimeOutageStatus : SessionStatus → Bool
  | .disconnected | .reconnecting | .error => true
  | _ => false

def defaultReason : SessionStatus → String
  | .disconnected => "session disconnected"
  | .reconnecting => "session reconnecting"
  | .error => "connection error"
  | _ => "runtime status changed"

def applyRuntimeHealth (runtime : SessionRuntime) (previousStatus : Option SessionStatus)
    (status : SessionStatus) (reason : Option String) : SessionRuntime :=
  if runtimeOutageStatus status then
    let continuingOutage := previousStatus.any runtimeOutageStatus
    { runtime with
      lastDisconnect :=
        if !continuingOutage || runtime.lastDisconnect.isNone then some runtime.lastActivity
        else runtime.lastDisconnect
      lastDisconnectReason :=
        some ((reason.bind normalizeSessionDisconnectReason).getD (defaultReason status)) }
  else runtime

/-- `iter_mut().find(..)`: the first one under the id is replaced. -/
def replaceProfile (profiles : List SessionProfile) (profile : SessionProfile) :
    List SessionProfile :=
  if profiles.any fun existing => existing.id = profile.id then
    editFirst (fun existing => existing.id = profile.id) (fun _ => profile) profiles
  else profiles ++ [profile]

/-- The runtime that a session gets with its profile. -/
def newRuntime (profile : SessionProfile) (now : DateTime) : SessionRuntime where
  sessionId := profile.id
  paneId := s!"{profile.id}:main"
  status := .disconnected
  title := profile.name
  cwd := none
  connectedSince := none
  lastActivity := now
  lastDisconnect := none
  lastDisconnectReason := none
  activeTransport := profile.kind

/-- What `upsert_profile` does to a runtime that is there. -/
def retitleRuntime (profile : SessionProfile) (now : DateTime) (runtime : SessionRuntime) :
    SessionRuntime :=
  { runtime with
    title := profile.name
    activeTransport :=
      if runtime.status = .disconnected || runtime.status = .blocked || runtime.status = .error then
        profile.kind
      else runtime.activeTransport
    lastActivity := now }

/-- What `set_runtime_status_with_reason` does to a runtime that is there. -/
def moveRuntime (profile : SessionProfile) (status : SessionStatus) (reason : Option String)
    (now : DateTime) (runtime : SessionRuntime) : SessionRuntime :=
  applyRuntimeHealth
    { runtime with
      status
      title := profile.name
      connectedSince :=
        if status = .connected then some (runtime.connectedSince.getD now) else none
      lastActivity := now
      activeTransport := profile.kind }
    (some runtime.status) status reason

/-- The runtime that it makes for a profile without one. -/
def statusRuntime (profile : SessionProfile) (sessionId : String) (status : SessionStatus)
    (reason : Option String) (now : DateTime) : SessionRuntime :=
  applyRuntimeHealth
    { sessionId
      paneId := s!"{sessionId}:main"
      status
      title := profile.name
      cwd := none
      connectedSince := if status = .connected then some now else none
      lastActivity := now
      lastDisconnect := none
      lastDisconnectReason := none
      activeTransport := profile.kind }
    none status reason

/-- What `close_session` does to a runtime. -/
def closeRuntime (now : DateTime) (runtime : SessionRuntime) : SessionRuntime :=
  applyRuntimeHealth
    { runtime with status := .disconnected, connectedSince := none, lastActivity := now }
    (some runtime.status) .disconnected (some "user closed session")

namespace SessionStore

def hasRuntime (store : SessionStore) (sessionId : String) : Bool :=
  store.runtimes.any fun runtime => runtime.sessionId = sessionId

def summaryFor (store : SessionStore) (sessionId : String) : Except String SessionSummary :=
  match store.summaries.find? fun summary => summary.profile.id = sessionId with
  | some summary => .ok summary
  | none => .error s!"session summary is missing: {sessionId}"

def upsertProfile (store : SessionStore) (profile : SessionProfile) (now : DateTime) :
    SessionStore :=
  let store := { store with profiles := replaceProfile store.profiles profile }
  if store.hasRuntime profile.id then store.editRuntime profile.id (retitleRuntime profile now)
  else { store with runtimes := store.runtimes ++ [newRuntime profile now] }

def setRuntimeStatusWithReason (store : SessionStore) (sessionId : String)
    (status : SessionStatus) (reason : Option String) (now : DateTime) :
    Except String SessionSummary × SessionStore :=
  match store.profile sessionId with
  | none => (.error s!"unknown session: {sessionId}", store)
  | some profile =>
    let next :=
      if store.hasRuntime sessionId then
        store.editRuntime sessionId (moveRuntime profile status reason now)
      else
        { store with
          runtimes := store.runtimes ++ [statusRuntime profile sessionId status reason now] }
    (next.summaryFor sessionId, next)

end SessionStore

/-- The store with the sink that its system events go to. -/
structure RuntimeWorld where
  store : SessionStore
  sink : SystemEventSinkState

/-- The fresh id of a system event and what its notifier answers. -/
structure EventDelivery where
  eventId : String
  answer : TrySend

inductive RuntimeOperation
  | upsertProfile (profile : SessionProfile)
  | deleteProfile (sessionId : String)
  | setRuntimeStatusWithReason (sessionId : String) (status : SessionStatus)
      (reason : Option String)
  /-- `endpoint` is the text of `describe_endpoint` with the kind. -/
  | openSession (sessionId endpoint : String) (delivery : EventDelivery)
  | closeSession (sessionId : String) (delivery : EventDelivery)

namespace RuntimeWorld

def pushSystemEvent (world : RuntimeWorld) (delivery : EventDelivery) (sessionId text : String)
    (now : DateTime) : RuntimeWorld :=
  let outcome := (PortMate.pushSystemEvent delivery.eventId now delivery.answer sessionId text).run
    world.store world.sink
  { store := outcome.store, sink := outcome.sink }

def openSession (world : RuntimeWorld) (sessionId endpoint : String) (delivery : EventDelivery)
    (now : DateTime) : Except String SessionSummary × RuntimeWorld :=
  match world.store.setRuntimeStatusWithReason sessionId .connected none now with
  | (.error error, store) => (.error error, { world with store })
  | (.ok _, store) =>
    let next := ({ world with store } : RuntimeWorld).pushSystemEvent delivery sessionId
      s!"PortMate: connected to {endpoint}" now
    (next.store.summaryFor sessionId, next)

def closeSession (world : RuntimeWorld) (sessionId : String) (delivery : EventDelivery)
    (now : DateTime) : Except String SessionSummary × RuntimeWorld :=
  if !world.store.hasProfile sessionId then (.error s!"unknown session: {sessionId}", world)
  else
    let closed := { world with store := world.store.editRuntime sessionId (closeRuntime now) }
    let next := closed.pushSystemEvent delivery sessionId "PortMate: session disconnected" now
    (next.store.summaryFor sessionId, next)

def apply (world : RuntimeWorld) (input : DateTime × RuntimeOperation) : RuntimeWorld :=
  match input.2 with
  | .upsertProfile profile => { world with store := world.store.upsertProfile profile input.1 }
  | .deleteProfile sessionId =>
    let (_, store, sink) := world.store.deleteProfile world.sink sessionId input.1
    { store, sink }
  | .setRuntimeStatusWithReason sessionId status reason =>
    { world with
      store := (world.store.setRuntimeStatusWithReason sessionId status reason input.1).2 }
  | .openSession sessionId endpoint delivery =>
    (world.openSession sessionId endpoint delivery input.1).2
  | .closeSession sessionId delivery => (world.closeSession sessionId delivery input.1).2

def fresh : RuntimeWorld := ⟨.default, ⟨.inactive, []⟩⟩

/-- A fresh store after some operations, each with the time it reads. -/
def after (inputs : List (DateTime × RuntimeOperation)) : RuntimeWorld :=
  inputs.foldl apply fresh

def runtime (sessionId : String) (world : RuntimeWorld) : Option SessionRuntime :=
  world.store.runtimes.find? fun runtime => runtime.sessionId = sessionId

end RuntimeWorld

end PortMate
