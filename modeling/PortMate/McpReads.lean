import PortMate.EventLogRuns
import PortMate.McpRequests
import PortMate.SplitPattern

namespace PortMate

open List

/-- `{scope:?}`. -/
def McpScope.debugName : McpScope → String
  | .readSessions => "ReadSessions"
  | .readLogs => "ReadLogs"
  | .readTransfers => "ReadTransfers"
  | .readTunnels => "ReadTunnels"
  | .readScripts => "ReadScripts"
  | .readMcp => "ReadMcp"
  | .writeInput => "WriteInput"
  | .transfer => "Transfer"
  | .hostFiles => "HostFiles"
  | .tunnel => "Tunnel"
  | .manageSessions => "ManageSessions"
  | .runScripts => "RunScripts"
  | .manageMcp => "ManageMcp"

structure SessionBundle where
  summary : Option SessionSummary
  events : List SessionEvent
  logShards : List String
  timeline : List TimelineMark
  sysmon : Option SysmonSnapshot
  transfers : List TransferTask
  audit : List AuditRecord

/-- The texts of the standard library and of `redaction.rs` that the reads go through. -/
structure ReadTexts where
  toLowercase : List Char → List Char
  redactSecrets : String → String
  redactSessionSummary : SessionSummary → SessionSummary
  redactSessionEvents : List SessionEvent → List SessionEvent
  redactTimelineMarks : List TimelineMark → List TimelineMark
  redactTransferTask : TransferTask → TransferTask
  redactAuditRecords : List AuditRecord → List AuditRecord
  redactSysmonSnapshot : SysmonSnapshot → SysmonSnapshot

/-- What the reads look at: the store, and the contents of the parsers that its screens share. -/
structure ReadState where
  store : SessionStore
  contents : Nat → String

namespace SessionStore

def mcpCanRead (store : SessionStore) (clientId : String) (scope : McpScope)
    (sessionId : Option String) (now : DateTime) : Bool :=
  printableId (rustTrim clientId) 128 && store.mcpCan (rustTrim clientId) scope sessionId now

def tailLog (store : SessionStore) (sessionId : String) (limit : Nat) : List SessionEvent :=
  ((store.events.reverse.filter fun event => event.sessionId = sessionId).take limit).reverse

def searchLogsMatchingSessions (texts : ReadTexts) (store : SessionStore) (query : String)
    (limit : Nat) (sessionAllowed : String → Bool) : List SessionEvent :=
  let needle := texts.toLowercase query.toList
  (((store.events.reverse.filter fun event => sessionAllowed event.sessionId).filter fun event =>
    containsPattern needle (texts.toLowercase (event.text.getD "").toList)).take limit).reverse

def mcpSearchLogs (texts : ReadTexts) (store : SessionStore) (clientId query : String)
    (sessionId : Option String) (limit : Nat) (now : DateTime) : List SessionEvent :=
  let visible := ((store.profiles.map (·.id)).filter fun id =>
    sessionId.all fun wanted => wanted = id).filter fun id =>
      store.mcpCanRead clientId .readLogs (some id) now
  if visible.isEmpty || limit = 0 then []
  else store.searchLogsMatchingSessions texts query limit fun id => visible.contains id

def timelineFor (store : SessionStore) (sessionId : String) : List TimelineMark :=
  store.timeline.filter fun mark => mark.sessionId = sessionId

def sysmonFor (store : SessionStore) (sessionId : String) : Option SysmonSnapshot :=
  store.sysmon.reverse.find? fun snapshot => snapshot.sessionId = sessionId

def exportSessionBundleRedacted (texts : ReadTexts) (store : SessionStore) (sessionId : String) :
    SessionBundle :=
  let events := texts.redactSessionEvents (store.tailLog sessionId 500)
  { summary := (store.summaries.find? fun summary => summary.profile.id = sessionId).map
      texts.redactSessionSummary
    events
    logShards := events.filterMap (·.bytesRef)
    timeline := texts.redactTimelineMarks (store.timelineFor sessionId)
    sysmon := (store.sysmonFor sessionId).map texts.redactSysmonSnapshot
    transfers := (store.transfers.filter fun transfer => transfer.sessionId = sessionId).map
      texts.redactTransferTask
    audit := texts.redactAuditRecords
      (store.audit.filter fun record => record.sessionId = some sessionId) }

end SessionStore

open SessionStore

def ReadState.screen (state : ReadState) (sessionId : String) : Option String :=
  (state.store.terminalScreens.lookup sessionId).map fun screen => state.contents screen.parser

/-- `bounded_log_query_limit` and `bounded_mcp_transfer_query_limit`. -/
def boundedQueryLimit (limit : Option Nat) : Nat := min (max (limit.getD 100) 1) 1000

def requireMcpReadScope (store : SessionStore) (request : IpcRequest) (scope : McpScope)
    (sessionId : Option String) (now : DateTime) : Except String Unit := do
  match sessionId with
  | some id => validateMcpSessionId id
  | none => .ok ()
  if store.mcpCanRead request.clientId scope sessionId now then .ok ()
  else .error s!"MCP read grant does not permit {scope.debugName} for the requested session"

inductive McpReadCommand
  | listSessions | readScreen | tailLog | searchLogs | listTransfers | getTransfer
  | exportSessionBundle
  deriving DecidableEq

namespace McpReadCommand

def name : McpReadCommand → String
  | .listSessions => "list_sessions"
  | .readScreen => "read_screen"
  | .tailLog => "tail_log"
  | .searchLogs => "search_logs"
  | .listTransfers => "list_transfers"
  | .getTransfer => "get_transfer"
  | .exportSessionBundle => "export_session_bundle"

def scope : McpReadCommand → McpScope
  | .listSessions => .readSessions
  | .readScreen | .tailLog | .searchLogs | .exportSessionBundle => .readLogs
  | .listTransfers | .getTransfer => .readTransfers

end McpReadCommand

inductive McpAnswer
  | sessions (summaries : List SessionSummary)
  | screen (text : String)
  | events (events : List SessionEvent)
  | transfers (transfers : List TransferTask)
  | transfer (transfer : TransferTask)
  | bundle (bundle : SessionBundle)

def Json.stringAt? (args : Json) (key : String) : Option String := (args.get? key).bind Json.asStr?

def Json.limitAt (args : Json) : Nat := boundedQueryLimit ((args.get? "limit").bind Json.asU64?)

/-- The read commands of `execute_ipc_request_inner`. -/
def executeMcpRead (texts : ReadTexts) (state : ReadState) (now : DateTime)
    (command : McpReadCommand) (request : IpcRequest) : Except String McpAnswer :=
  let store := state.store
  match command with
  | .listSessions => do
    requireMcpReadScope store request .readSessions none now
    return .sessions ((store.summaries.filter fun summary =>
      store.mcpCanRead request.clientId .readSessions (some summary.profile.id) now).map
        texts.redactSessionSummary)
  | .readScreen => do
    let sessionId ← ipcStringArg request.args "sessionId"
    requireMcpReadScope store request .readLogs (some sessionId) now
    return .screen (texts.redactSecrets ((state.screen sessionId).getD ""))
  | .tailLog => do
    let sessionId ← ipcStringArg request.args "sessionId"
    requireMcpReadScope store request .readLogs (some sessionId) now
    return .events (texts.redactSessionEvents (store.tailLog sessionId request.args.limitAt))
  | .searchLogs => do
    let query ← ipcStringArg request.args "query"
    let sessionId := request.args.stringAt? "sessionId"
    requireMcpReadScope store request .readLogs sessionId now
    return .events (texts.redactSessionEvents
      (store.mcpSearchLogs texts request.clientId query sessionId request.args.limitAt now))
  | .listTransfers => do
    let sessionId := request.args.stringAt? "sessionId"
    requireMcpReadScope store request .readTransfers sessionId now
    let transfers := (store.transfers.filter fun transfer =>
      (sessionId.all fun wanted => transfer.sessionId = wanted) &&
        store.mcpCanRead request.clientId .readTransfers (some transfer.sessionId) now).map
          texts.redactTransferTask
    return .transfers (transfers.drop (transfers.length - request.args.limitAt))
  | .getTransfer => do
    let transferId ← ipcStringArg request.args "transferId"
    match store.transferById transferId with
    | none => .error "unknown or unavailable transfer"
    | some transfer => do
      requireMcpReadScope store request .readTransfers (some transfer.sessionId) now
      return .transfer (texts.redactTransferTask transfer)
  | .exportSessionBundle => do
    let sessionId ← ipcStringArg request.args "sessionId"
    requireMcpReadScope store request .readLogs (some sessionId) now
    return .bundle (store.exportSessionBundleRedacted texts sessionId)

/-- Some grant of the client that is in force lets it read the session. -/
def readableBy (clientId : String) (grants : List McpGrant) (scope : McpScope) (now : DateTime)
    (sessionId : String) : Bool :=
  (grants.filter fun grant => grant.clientId = rustTrim clientId).any fun grant =>
    grant.allows scope (some sessionId) now

/-- An event that a search of a client is about: its text matches, its session has a profile and is
the one that is asked for, and the client may read it. -/
def searchMatches (texts : ReadTexts) (store : SessionStore) (clientId query : String)
    (sessionId : Option String) (now : DateTime) (event : SessionEvent) : Bool :=
  containsPattern (texts.toLowercase query.toList)
      (texts.toLowercase (event.text.getD "").toList) &&
    (store.profiles.any fun profile => profile.id = event.sessionId) &&
    (sessionId.all fun wanted => wanted = event.sessionId) &&
    readableBy clientId store.grants .readLogs now event.sessionId

theorem take_reverse_filter {α : Type} (items : List α) (keeps : α → Bool) (limit : Nat) :
    ((items.reverse.filter keeps).take limit).reverse =
      (items.filter keeps).drop ((items.filter keeps).length - limit) := by
  rw [filter_reverse, reverse_take, reverse_reverse, length_reverse]

theorem visible_iff {store : SessionStore} {clientId : String} {wanted : Option String}
    {now : DateTime} {id : String} :
    id ∈ ((store.profiles.map (·.id)).filter fun id => wanted.all fun wanted => wanted = id).filter
        (fun id => store.mcpCanRead clientId .readLogs (some id) now) ↔
      (store.profiles.any fun profile => profile.id = id) = true ∧
        (wanted.all fun wanted => wanted = id) = true ∧
        printableId (rustTrim clientId) 128 = true ∧
        readableBy clientId store.grants .readLogs now id = true := by
  simp only [mem_filter, mem_map, any_eq_true, decide_eq_true_eq,
    mcpCanRead, Bool.and_eq_true, and_assoc]
  rfl

/-- A search gives the last of the events it is about, however many others match the text. -/
theorem mcp_search_shows_readable (texts : ReadTexts) (store : SessionStore)
    (clientId query : String) (sessionId : Option String) (limit : Nat) (now : DateTime) :
    store.mcpSearchLogs texts clientId query sessionId limit now =
      if printableId (rustTrim clientId) 128 then
        (store.events.filter (searchMatches texts store clientId query sessionId now)).drop
          ((store.events.filter (searchMatches texts store clientId query sessionId now)).length -
            limit)
      else [] := by
  unfold mcpSearchLogs
  extract_lets visible
  have shown : ∀ id, visible.contains id = true ↔ _ :=
    fun id => contains_iff_mem.trans visible_iff
  by_cases named : printableId (rustTrim clientId) 128 = true
  · rw [if_pos named]
    have same : ∀ event, (visible.contains event.sessionId &&
        containsPattern (texts.toLowercase query.toList)
          (texts.toLowercase (event.text.getD "").toList)) =
        searchMatches texts store clientId query sessionId now event := by
      intro event
      rw [Bool.eq_iff_iff, Bool.and_eq_true, shown event.sessionId]
      simp only [searchMatches, Bool.and_eq_true, named, true_and]
      constructor
      · rintro ⟨⟨listed, wanted, readable⟩, found⟩
        exact ⟨⟨⟨found, listed⟩, wanted⟩, readable⟩
      · rintro ⟨⟨⟨found, listed⟩, wanted⟩, readable⟩
        exact ⟨⟨listed, wanted, readable⟩, found⟩
    split
    next none_shown =>
      rw [Bool.or_eq_true, List.isEmpty_iff, decide_eq_true_eq] at none_shown
      obtain empty | rfl := none_shown
      · have nothing : store.events.filter
            (searchMatches texts store clientId query sessionId now) = [] := by
          refine filter_eq_nil_iff.mpr fun event _ => ?_
          rw [← same event, empty]
          simp
        rw [nothing, drop_nil]
      · rw [Nat.sub_zero, drop_length]
    next =>
      unfold searchLogsMatchingSessions
      simp only [filter_filter]
      rw [take_reverse_filter, filter_congr fun event _ => (Bool.and_comm _ _).trans (same event)]
  · rw [if_neg named]
    have empty : visible = [] := by
      refine eq_nil_iff_forall_not_mem.mpr fun id mem => named ?_
      exact (visible_iff.mp mem).2.2.1
    rw [if_pos (by rw [empty]; rfl)]

def plainTexts : ReadTexts where
  toLowercase := id
  redactSecrets := id
  redactSessionSummary := id
  redactSessionEvents := id
  redactTimelineMarks := id
  redactTransferTask := id
  redactAuditRecords := id
  redactSysmonSnapshot := id

def unprintableClientId : String := "a\x01b"

def unprintableClientStore : SessionStore :=
  { default with
    profiles := [⟨"s1", "shell", .shell, "", []⟩]
    events := [⟨"e1", "s1", "s1:main", 0, .inbound, .stdout, none, some "ready", []⟩]
    grants := [⟨unprintableClientId, "reader", [.readLogs], [], false, none, none⟩] }

theorem unprintable_client_shown_nothing :
    unprintableClientStore.events.filter
        (searchMatches plainTexts unprintableClientStore unprintableClientId "ready" none 0) =
      unprintableClientStore.events ∧
    unprintableClientStore.mcpSearchLogs plainTexts unprintableClientId "ready" none 10 0 ≠
      unprintableClientStore.events := by
  decide

end PortMate
