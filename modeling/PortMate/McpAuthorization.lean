import PortMate.McpRequests
import PortMate.StoreTransactions
import PortMate.Transducer

namespace PortMate

def mcpScopeAllowed (store : SessionStore) (clientId : String) (scope : McpScope)
    (sessionId : Option String) (now : DateTime) : Bool :=
  match normalizeMcpClientId clientId with
  | .ok clientId => store.mcpCan clientId scope sessionId now
  | .error _ => false

def mcpWriteConfirmationRequired (store : SessionStore) (clientId : String) (scope : McpScope)
    (sessionId : Option String) (now : DateTime) : Bool :=
  !(rustTrim clientId).isEmpty && store.grants.any fun grant =>
    grant.clientId = rustTrim clientId && grant.confirmWrites && grant.allows scope sessionId now

def mcpScopeLabel : McpScope → String
  | .readSessions => "read-sessions"
  | .readLogs => "read-logs"
  | .readTransfers => "read-transfers"
  | .readTunnels => "read-tunnels"
  | .readScripts => "read-scripts"
  | .readMcp => "read-mcp"
  | .writeInput => "write-input"
  | .transfer => "transfer"
  | .hostFiles => "host-files"
  | .tunnel => "tunnel"
  | .manageSessions => "manage-sessions"
  | .runScripts => "run-scripts"
  | .manageMcp => "manage-mcp"

/-- `{scope:?}`. -/
def mcpScopeDebug : McpScope → String
  | .readSessions => "ReadSessions"
  | .readLogs => "ReadLogs"
  | .readTransfers => "ReadTransfers"
  | .readTunnels => "ReadTunnels"
  | .readScripts => "ReadScripts"
  | .readMcp => "ReadMcp"
  | .writeInput => "WriteInput"
  | .transfer => "Transfer"
  | .hostFiles => "HostFiles"
  | .tunnel => "Tunnel"
  | .manageSessions => "ManageSessions"
  | .runScripts => "RunScripts"
  | .manageMcp => "ManageMcp"

def mcpAuditActor (clientId : String) : String :=
  let clientId := rustTrim clientId
  if clientId.isEmpty then "<missing-client-id>"
  else if byteLength clientId > maxMcpGrantClientIdBytes || clientId.toList.any isRustControl then
    "<invalid-client-id>"
  else clientId

/-- Copies the arguments that `read` understands into the details, each under its own name. -/
def Details.insertArgs (details : Details) (args : Json) (read : Json → Option String)
    (names : List String) : Details :=
  names.foldl (fun details name =>
    match (args.get? name).bind read with
    | some value => details.insert name value
    | none => details) details

def mcpAuditDetails (request : IpcRequest) (scope : McpScope)
    (trustedBootstrap approvalRequired : Bool) : Details :=
  let u64Text := fun json : Json => json.asU64?.map toString
  let boolText := fun json : Json => json.asBool?.map toString
  let details := ((Details.insert [] "scope" (mcpScopeLabel scope)).insert "trustedBootstrap"
    (toString trustedBootstrap)).insert "approvalRequired" (toString approvalRequired)
  if request.command = "run_custom_script" then
    details.insertArgs request.args Json.asStr? ["scriptId"]
  else if request.command = "create_tunnel" then
    let details := details.insertArgs request.args Json.asStr?
      ["egress", "mode", "bindHost", "targetHost"]
    let details := details.insertArgs request.args u64Text ["bindPort", "targetPort"]
    let details := details.insertArgs request.args boolText ["allowRemoteBind"]
    match (request.args.get? "routeRules").bind Json.asArray? with
    | some rules => details.insert "routeRuleCount" (toString rules.length)
    | none => details
  else if request.command = "tunnel_request" ∨ request.command = "udp_request" then
    let details := details.insertArgs request.args Json.asStr?
      ["tunnelId", "targetHost", "encoding"]
    let details := details.insertArgs request.args u64Text ["targetPort"]
    details.insertArgs request.args boolText ["closeWrite"]
  else details

def updateMcpWriteAudit (store : SessionStore) (auditId decision : String)
    (approval : Option String) : Except String SessionStore :=
  let update (record : AuditRecord) : AuditRecord :=
    { record with
      decision := decision
      details := match approval with
        | some approval => record.details.insert "approval" approval
        | none => record.details }
  if store.audit.any fun record => record.id = auditId then
    let before := store.audit.takeWhile fun record => record.id ≠ auditId
    let rest := store.audit.dropWhile fun record => record.id ≠ auditId
    .ok { store with audit := before ++ (rest.take 1).map update ++ rest.drop 1 }
  else .error s!"MCP audit record disappeared before completion: {auditId}"

inductive McpApprovalOutcome
  | approved | denied | timedOut
  deriving DecidableEq

/-- What a step of the handler gets from outside: ids, the clock of the confirmation check, the
disk, the user and the command itself. -/
structure StepIo where
  auditId : String
  confirmAt : DateTime
  persist : Except String Unit
  verifyAfterError : Except String Bool
  approval : Except String McpApprovalOutcome
  executed : Except String Bool

/-- `commit_store_mutation` with a closure that only edits the store. -/
def AppState.commit (app : AppState) (io : StepIo)
    (edit : SessionStore → Except String SessionStore) : Except String Unit × AppState :=
  let committed := commitStoreMutationWithState app.store app.sink
    (.read fun store =>
      match edit store with
      | .ok next => .write next (.done (.ok ()))
      | .error error => .done (.error error))
    (fun _ => io.persist) fun _ => io.verifyAfterError
  (committed.result.mapError StoreCommitError.message,
    { app with store := committed.store, sink := committed.sink })

def auditRecord (request : IpcRequest) (id : String) (now : DateTime) (scope : McpScope)
    (sessionId : Option String) (decision : String) (approvalRequired : Bool) : AuditRecord where
  id := id
  ts := now
  actor := mcpAuditActor request.clientId
  action := request.command
  sessionId := sessionId
  decision := decision
  details := mcpAuditDetails request scope false approvalRequired

def appendAndSaveMcpAudit (app : AppState) (io : StepIo) (record : AuditRecord) :
    Except String Unit × AppState :=
  app.commit io fun store => .ok (store.recordAudit record)

/-- A write on its way: what the first steps found out about it. -/
structure WriteTask where
  scope : McpScope
  sessionId : Option String
  context : McpWriteExecutionContext
  auditId : String
  approvalRequired : Bool
  approval : Option String
  deriving DecidableEq

/-- Where `handle_ipc_request` stands; between two of its lock acquisitions anything can happen. -/
inductive WritePhase
  | received
  | invalid (scope : McpScope) (sessionId : Option String) (error : String)
  | resolved (scope : McpScope) (sessionId : Option String)
  | validated (scope : McpScope) (sessionId : Option String)
  | captured (scope : McpScope) (sessionId : Option String) (context : McpWriteExecutionContext)
  | authorized (task : WriteTask)
  | answered (task : WriteTask) (answer : Except String McpApprovalOutcome)
  | cleared (task : WriteTask)
  | retargeted (task : WriteTask)
  | regranted (task : WriteTask)
  | rechecked (task : WriteTask)
  | confirmed (task : WriteTask)
  | concluding (task : WriteTask) (result : Except String Bool)
  | finished (result : Except String Bool)

structure WriteRun where
  app : AppState
  now : DateTime
  phase : WritePhase

/-- The steps that count for the authorization, each with the state it saw. -/
inductive WriteSignal
  | begun (app : AppState) (now : DateTime) (io : StepIo) (task : WriteTask)
  | approved (io : StepIo)
  | retargeted (app : AppState)
  | regranted (app : AppState) (now : DateTime)
  | rechecked (app : AppState)
  | confirmed (app : AppState)
  | executed (task : WriteTask)

section Handler

variable (checks : RequestChecks) (request : IpcRequest)

def beginMcpWriteAudit (app : AppState) (now : DateTime) (io : StepIo) (scope : McpScope)
    (sessionId : Option String) (context : McpWriteExecutionContext) :
    Except String WriteTask × AppState :=
  let allowed := mcpScopeAllowed app.store request.clientId scope sessionId now
  let approvalRequired := allowed &&
    mcpWriteConfirmationRequired app.store request.clientId scope sessionId io.confirmAt
  let decision :=
    if approvalRequired then "pending-approval" else if allowed then "authorized" else "denied"
  let record := auditRecord request io.auditId now scope sessionId decision approvalRequired
  match appendAndSaveMcpAudit app io record with
  | (.error error, next) =>
    (.error s!"MCP write was not executed because its audit record could not be saved: {error}",
      next)
  | (.ok (), next) =>
    if allowed then (.ok ⟨scope, sessionId, context, io.auditId, approvalRequired, none⟩, next)
    else
      let where_ := match sessionId with
        | some sessionId => s!" on session `{sessionId}`"
        | none => " on the PortMate host"
      (.error (s!"MCP grant does not permit {mcpScopeDebug scope} for client " ++
        s!"`{request.clientId}`{where_}"), next)

def finishMcpWriteAudit (app : AppState) (io : StepIo) (auditId decision : String)
    (approval : Option String) : Except String Unit × AppState :=
  app.commit io fun store => updateMcpWriteAudit store auditId decision approval

/-- `finish_applied_mcp_write_audit`: the command has run, so memory keeps the outcome even when
the disk does not. -/
def finishAppliedMcpWriteAudit (app : AppState) (io : StepIo) (auditId decision : String)
    (approval : Option String) : AppState :=
  match updateMcpWriteAudit app.store auditId decision approval with
  | .error _ => app
  | .ok store =>
    match io.persist, io.verifyAfterError with
    | .ok (), _ | .error _, .ok true => { app with store := store }
    | .error _, _ =>
      let degrade (record : AuditRecord) : AuditRecord :=
        { record with
          details := record.details.insert "finalizationPersistence" "degraded" }
      let before := store.audit.takeWhile fun record => record.id ≠ auditId
      let rest := store.audit.dropWhile fun record => record.id ≠ auditId
      { app with
        store := { store with audit := before ++ (rest.take 1).map degrade ++ rest.drop 1 } }

/-- The decision, the note and the error text for an approval that was not given. -/
def refusal : Except String McpApprovalOutcome → String × String × String
  | .ok .timedOut =>
    ("timed-out", "MCP write approval timed out without execution",
      "MCP write timed out without execution and its audit could not be saved: ")
  | .error approvalError =>
    ("unavailable",
      s!"MCP write was not executed because approval was unavailable: {approvalError}",
      s!"MCP write was not executed because approval was unavailable: {approvalError}; " ++
        "failed to save denial audit: ")
  | .ok _ =>
    ("user-denied", "MCP write was denied by the desktop user",
      "MCP write was not executed and its denial audit could not be saved: ")

/-- One step of `handle_ipc_request`; a read command has no authorization of its own here. -/
def WriteRun.advance (run : WriteRun) (io : StepIo) : WriteRun × List WriteSignal :=
  let goto (phase : WritePhase) : WriteRun := { run with phase := phase }
  let fail (app : AppState) (error : String) : WriteRun :=
    { run with app := app, phase := .finished (.error error) }
  match run.phase with
  | .received =>
    match ipcWriteScope request.command with
    | none =>
      if (ipcReadScope request.command).isSome then (goto (.finished io.executed), [])
      else (goto (.finished (.error s!"unsupported IPC command: {request.command}")), [])
    | some scope =>
      match ipcWriteSessionId checks run.app request with
      | .error error => (goto (.invalid scope none error), [])
      | .ok none => (goto (.resolved scope none), [])
      | .ok (some sessionId) =>
        match validateMcpSessionId sessionId with
        | .error error => (goto (.invalid scope none error), [])
        | .ok () => (goto (.resolved scope (some sessionId)), [])
  | .invalid scope sessionId error =>
    let record := auditRecord request io.auditId run.now scope sessionId "invalid" false
    match appendAndSaveMcpAudit run.app io record with
    | (.error auditError, app) =>
      (fail app s!"{error}; failed to save MCP invalid-request audit: {auditError}", [])
    | (.ok (), app) => (fail app error, [])
  | .resolved scope sessionId =>
    match checks.writeArgs run.app request with
    | .error error => (goto (.invalid scope sessionId error), [])
    | .ok () => (goto (.validated scope sessionId), [])
  | .validated scope sessionId =>
    match captureMcpWriteExecutionContext checks run.app request with
    | .error error => (goto (.invalid scope sessionId error), [])
    | .ok context => (goto (.captured scope sessionId context), [])
  | .captured scope sessionId context =>
    match beginMcpWriteAudit request run.app run.now io scope sessionId context with
    | (.error error, app) => (fail app error, [])
    | (.ok task, app) =>
      ({ run with
          app := app
          phase := if task.approvalRequired then .authorized task else .cleared task },
        [.begun run.app run.now io task])
  | .authorized task => (goto (.answered task io.approval), [])
  | .answered task (.ok .approved) =>
    match finishMcpWriteAudit run.app io task.auditId "authorized" (some "approved") with
    | (.error error, app) =>
      (fail app ("MCP write was approved but not executed because its approval audit " ++
        s!"could not be saved: {error}"), [])
    | (.ok (), app) =>
      ({ run with app := app, phase := .cleared { task with approval := some "approved" } },
        [.approved io])
  | .answered task answer =>
    let (note, error, unsaved) := refusal answer
    match finishMcpWriteAudit run.app io task.auditId "denied" (some note) with
    | (.error auditError, app) => (fail app (unsaved ++ auditError), [])
    | (.ok (), app) => (fail app error, [])
  -- The four readings of `revalidate_ipc_write_target_with_context`.
  | .cleared task =>
    match ipcWriteSessionId checks run.app request with
    | .error error => (goto (.concluding task (.error error)), [])
    | .ok sessionId =>
      if sessionId = task.sessionId then (goto (.retargeted task), [.retargeted run.app])
      else
        (goto (.concluding task (.error
          "MCP write target changed after authorization; request was not executed")), [])
  | .retargeted task =>
    if run.app.store.mcpCan request.clientId task.scope task.sessionId run.now then
      (goto (.regranted task), [.regranted run.app run.now])
    else
      (goto (.concluding task (.error
        "MCP grant changed after authorization; request was not executed")), [])
  | .regranted task =>
    match checks.writeArgs run.app request with
    | .error error => (goto (.concluding task (.error error)), [])
    | .ok () => (goto (.rechecked task), [.rechecked run.app])
  | .rechecked task =>
    match task.context.revalidate checks run.app request with
    | .error error => (goto (.concluding task (.error error)), [])
    | .ok () => (goto (.confirmed task), [.confirmed run.app])
  | .confirmed task => (goto (.concluding task io.executed), [.executed task])
  | .concluding task result =>
    let decision := match result with
      | .ok true => "succeeded"
      | _ => "failed"
    ({ run with
        app := finishAppliedMcpWriteAudit run.app io task.auditId decision task.approval
        phase := .finished result }, [])
  | .finished _ => (run, [])

/-- Between the steps of the handler the rest of the program changes the state as it likes: grants
are edited and revoked, profiles deleted, tunnels closed, and time goes on. -/
inductive WriteEvent
  | advance (io : StepIo)
  | elsewhere (app : AppState) (now : DateTime)

def handleIpcRequest : Transducer WriteRun WriteEvent WriteSignal where
  step run
    | .advance io => run.advance checks request io
    | .elsewhere app now => ({ run with app := app, now := now }, [])

end Handler

end PortMate
