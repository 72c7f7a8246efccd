import PortMate.KeyedLists
import PortMate.TransferStates

namespace PortMate

def maxTimelineMarksPerSession : Nat := 2000

def maxSysmonSnapshotsPerSession : Nat := 1024

structure SessionSummary where
  profile : SessionProfile
  runtime : SessionRuntime
  logLines : Nat
  lastLine : Option String
  deriving DecidableEq

namespace SessionStore

def hasProfile (store : SessionStore) (sessionId : String) : Bool :=
  store.profiles.any fun profile => profile.id = sessionId

def editRuntime (store : SessionStore) (sessionId : String)
    (edit : SessionRuntime → SessionRuntime) : SessionStore :=
  { store with
    runtimes := editFirst (fun runtime => runtime.sessionId = sessionId) edit store.runtimes }

/-- A session without a screen gets one; what the parser makes of the text is not kept here. -/
def processTerminalOutput (store : SessionStore) (sessionId : String) (ts : DateTime)
    (parser : Nat) : SessionStore :=
  if (store.terminalScreens.lookup sessionId).isNone && store.hasProfile sessionId then
    { store with terminalScreens := (sessionId, ⟨parser, ts⟩) :: store.terminalScreens }
  else store

def paintsTerminal (event : SessionEvent) : Bool :=
  event.direction = .inbound && (event.stream = .stdout || event.stream = .stderr) &&
    event.text.isSome

/-- An event that is older than the last one is sorted in; the sort is stable. -/
def insertEvent (events : List SessionEvent) (event : SessionEvent) : List SessionEvent :=
  if events.getLast?.any fun recorded => event.ts < recorded.ts then
    (events ++ [event]).mergeSort fun first second => first.ts ≤ second.ts
  else events ++ [event]

/-- `parser` is the handle of the screen that may have to be made. -/
def recordPreparedEvent (store : SessionStore) (event : SessionEvent) (parser : Nat) :
    Except String SessionEvent × SessionStore :=
  if !store.hasProfile event.sessionId then (.error s!"unknown session: {event.sessionId}", store)
  else if !printableId event.id 128 || event.paneId ≠ s!"{event.sessionId}:main" then
    (.error "invalid prepared session event identity", store)
  else
    let touched := store.editRuntime event.sessionId fun runtime =>
      { runtime with lastActivity := max runtime.lastActivity event.ts }
    let painted :=
      if paintsTerminal event then touched.processTerminalOutput event.sessionId event.ts parser
      else touched
    (.ok event,
      ({ painted with events := insertEvent painted.events event } : SessionStore).trimEventsIfNeeded
        event.sessionId)

def sentEvent (eventId actor sessionId text : String) (bytesRef : Option String) (now : DateTime) :
    SessionEvent where
  id := eventId
  sessionId := sessionId
  paneId := s!"{sessionId}:main"
  ts := now
  direction := .outbound
  stream := .stdout
  bytesRef := bytesRef
  text := some text
  annotations := [("actor", actor)]

/-- `redacted` is the text without its secrets; the ids are fresh. -/
def sendTextWithBytesRefAndAuditAction (store : SessionStore) (actor sessionId redacted : String)
    (bytesRef auditAction : Option String) (auditBytes : Nat) (eventId auditId : String)
    (now : DateTime) : Except String SessionEvent × SessionStore :=
  if !store.hasProfile sessionId then (.error s!"unknown session: {sessionId}", store)
  else
    let touched := store.editRuntime sessionId fun runtime => { runtime with lastActivity := now }
    let event := sentEvent eventId actor sessionId redacted bytesRef now
    let recorded := ({ touched with events := touched.events ++ [event] } :
      SessionStore).trimEventsIfNeeded sessionId
    match auditAction with
    | none => (.ok event, recorded)
    | some action =>
      (.ok event, recorded.recordAudit
        { id := auditId
          ts := now
          actor
          action
          sessionId := some sessionId
          decision := "recorded"
          details := [("bytes", toString auditBytes)] })

def countEvents (events : List SessionEvent) : List (String × Nat) :=
  events.foldl (fun counts event => upsertEntry event.sessionId 0 (· + 1) counts) []

/-- The order in which the scopes are trimmed does not matter: each trim keeps the other scopes. -/
def trimEveryScope {α κ : Type} [DecidableEq κ] (scope : α → κ) (max : Nat) (items : List α) : List α :=
  (items.map scope).dedup.foldl
    (fun kept key => trimOldestMatching kept max 0 fun item => scope item = key) items

def recordTimelineMark (store : SessionStore) (mark : TimelineMark) : SessionStore :=
  { store with
    timeline := trimOldestMatching (store.timeline ++ [mark]) maxTimelineMarksPerSession
      auxHistoryTrimBatch fun known => known.sessionId = mark.sessionId }

def recordSysmonSnapshot (store : SessionStore) (snapshot : SysmonSnapshot) : SessionStore :=
  { store with
    sysmon := trimOldestMatching (store.sysmon ++ [snapshot]) maxSysmonSnapshotsPerSession
      auxHistoryTrimBatch fun known => known.sessionId = snapshot.sessionId }

def normalizeBoundedHistories (store : SessionStore) : SessionStore :=
  let events := keepLast (·.sessionId) maxEventsPerSession store.events
  let trimmed : SessionStore :=
    { store with
      events
      eventCounts := countEvents events
      audit := trimEveryScope (·.sessionId) maxAuditRecordsPerScope store.audit
      timeline := trimEveryScope (·.sessionId) maxTimelineMarksPerSession store.timeline
      sysmon := trimEveryScope (·.sessionId) maxSysmonSnapshotsPerSession store.sysmon }
  (store.transfers.map (·.sessionId)).dedup.foldl trimTransferHistory trimmed

/-- For every session with texts, how many there are and the last one in the list. -/
def logStats (events : List SessionEvent) : List (String × (Nat × Option String)) :=
  events.foldl
    (fun stats event =>
      match event.text with
      | none => stats
      | some text => upsertEntry event.sessionId (0, none) (fun known => (known.1 + 1, some text)) stats)
    []

def summaries (store : SessionStore) : List SessionSummary :=
  store.profiles.filterMap fun profile =>
    (store.runtimes.find? fun runtime => runtime.sessionId = profile.id).map fun runtime =>
      let (logLines, lastLine) := ((logStats store.events).lookup profile.id).getD (0, none)
      { profile, runtime, logLines, lastLine }

end SessionStore

/-- The store with its sink, and the last time that was read. -/
structure EventLog where
  store : SessionStore
  sink : SystemEventSinkState
  clock : DateTime

inductive EventOperation
  | recordPreparedEvent (event : SessionEvent) (parser : Nat)
  | pushSystemEvent (eventId sessionId text : String) (answer : TrySend)
  | sendText (actor sessionId redacted : String) (bytesRef auditAction : Option String)
      (auditBytes : Nat) (eventId auditId : String)
  | deleteProfile (sessionId : String)
  | normalizeBoundedHistories

/-- The session whose events an operation adds to. -/
def EventOperation.session : EventOperation → Option String
  | .recordPreparedEvent event _ => some event.sessionId
  | .pushSystemEvent _ sessionId .. => some sessionId
  | .sendText _ sessionId .. => some sessionId
  | _ => none

namespace EventLog

def apply (log : EventLog) (now : DateTime) : EventOperation → EventLog
  | .recordPreparedEvent event parser =>
    { log with store := (log.store.recordPreparedEvent event parser).2, clock := now }
  | .pushSystemEvent eventId sessionId text answer =>
    let outcome := (pushSystemEvent eventId now answer sessionId text).run log.store log.sink
    { store := outcome.store, sink := outcome.sink, clock := now }
  | .sendText actor sessionId redacted bytesRef auditAction auditBytes eventId auditId =>
    { log with
      store := (log.store.sendTextWithBytesRefAndAuditAction actor sessionId redacted bytesRef
        auditAction auditBytes eventId auditId now).2
      clock := now }
  | .deleteProfile sessionId =>
    let (_, store, sink) := log.store.deleteProfile log.sink sessionId now
    { store, sink, clock := now }
  | .normalizeBoundedHistories =>
    { log with store := log.store.normalizeBoundedHistories, clock := now }

/-- The clock does not go back, and an event is not prepared in the future. -/
def Timely (log : EventLog) (step : DateTime × EventOperation) : Prop :=
  log.clock ≤ step.1 ∧
    ∀ event parser, step.2 = .recordPreparedEvent event parser → event.ts ≤ step.1

end EventLog

def eventLog : Transducer EventLog (DateTime × EventOperation) Empty where
  step log input := (log.apply input.1 input.2, [])

end PortMate
