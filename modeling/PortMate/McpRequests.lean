import Mathlib.Algebra.Group.Int.Defs
import PortMate.McpGrants
import PortMate.RustText
import PortMate.StoreHistories
import PortMate.SystemEvents

namespace PortMate

inductive Json
  | null
  | bool (value : Bool)
  | num (value : Int)
  | str (value : String)
  | arr (items : List Json)
  | obj (fields : List (String × Json))

namespace Json

def get? (json : Json) (key : String) : Option Json :=
  match json with
  | .obj fields => fields.lookup key
  | _ => none

def asStr? : Json → Option String
  | .str value => some value
  | _ => none

def asU64? : Json → Option Nat
  | .num value => if 0 ≤ value ∧ value < 2 ^ 64 then some value.toNat else none
  | _ => none

def asBool? : Json → Option Bool
  | .bool value => some value
  | _ => none

def asArray? : Json → Option (List Json)
  | .arr items => some items
  | _ => none

end Json

def maxMcpGrantClientIdBytes : Nat := 128

def maxMcpGrantSessionIdBytes : Nat := 128

def validateMcpSessionId (sessionId : String) : Except String Unit :=
  if printableId sessionId maxMcpGrantSessionIdBytes then .ok ()
  else .error
    s!"MCP session ID must be non-empty, printable, and at most {maxMcpGrantSessionIdBytes} bytes"

def validateMcpOperationId (value label : String) : Except String Unit :=
  if printableId value 128 then .ok ()
  else .error s!"MCP {label} ID must be non-empty, printable, and at most 128 bytes"

def normalizeMcpClientId (clientId : String) : Except String String :=
  if printableId (rustTrim clientId) maxMcpGrantClientIdBytes then .ok (rustTrim clientId)
  else .error
    s!"MCP client ID must be non-empty, printable, and at most {maxMcpGrantClientIdBytes} bytes"

structure IpcRequest where
  clientId : String
  trustedWrite : Bool
  command : String
  args : Json

def ipcStringArg (args : Json) (key : String) : Except String String :=
  match (args.get? key).bind Json.asStr? with
  | some value => .ok value
  | none => .error s!"missing string argument `{key}`"

def ipcWriteScope (command : String) : Option McpScope :=
  if command ∈ ["send_text", "send_key", "send_bytes", "serial_send_break", "run_command",
      "run_local_command", "attach_tmux"] then some .writeInput
  else if command ∈ ["start_transfer", "cancel_transfer", "retry_transfer"] then some .transfer
  else if command ∈ ["create_tunnel", "stop_tunnel", "tunnel_request", "udp_request"] then
    some .tunnel
  else if command = "run_custom_script" then some .runScripts
  else if command = "restart_mcp_http" then some .manageMcp
  else none

def ipcReadScope (command : String) : Option McpScope :=
  if command = "list_sessions" then some .readSessions
  else if command ∈ ["read_screen", "tail_log", "search_logs", "list_tmux_state",
      "export_session_bundle"] then some .readLogs
  else if command ∈ ["list_transfers", "get_transfer"] then some .readTransfers
  else if command = "list_tunnels" then some .readTunnels
  else if command = "list_custom_scripts" then some .readScripts
  else if command = "mcp_http_runtime_status" then some .readMcp
  else none

inductive TunnelEgress
  | ssh | portmateHost
  deriving DecidableEq

inductive TunnelMode
  | «local» | remote | dynamic
  deriving DecidableEq

structure TunnelSpec where
  id : String
  egress : TunnelEgress
  mode : TunnelMode
  deriving DecidableEq

structure TunnelRuntime where
  sessionId : String
  sshRuntimeId : String
  spec : TunnelSpec
  closed : Bool
  deriving DecidableEq

structure McpContentUploadMetadata where
  uploadId : String
  sessionId : String
  destination : String
  fileName : String
  deriving DecidableEq

/-- The shared state a request looks at; `uploads` is the staging directory, by client and id. -/
structure AppState where
  store : SessionStore
  sink : SystemEventSinkState
  tunnels : List (String × TunnelRuntime)
  uploads : String → String → Except String McpContentUploadMetadata

def AppState.openTunnel? (app : AppState) (tunnelId : String) : Option TunnelRuntime :=
  (app.tunnels.lookup tunnelId).filter fun runtime => !runtime.closed

def mcpHostRouteOwnerPrefix : String := "\x00mcp-host:"

def mcpHostRouteOwnerId (clientId : String) : Except String String :=
  (normalizeMcpClientId clientId).map fun clientId => mcpHostRouteOwnerPrefix ++ clientId

/-- What `normalize_mcp_tunnel_request` says about the target of a tunnel. -/
inductive NormalizedMcpTunnelRequest
  | ssh (sessionId : String)
  | portmateHost

inductive NormalizedMcpStartTransferRequest
  | path (sessionId : String)
  | «inline» (sessionId : String)
  | upload (uploadId : String)

structure McpExchangeRequest where
  tunnelId : String
  targetHost : Option String
  targetPort : Option Nat

/-- The decoding of arguments and the checks that are not about authority. -/
structure RequestChecks where
  tunnelRequest : Json → Except String NormalizedMcpTunnelRequest
  startTransfer : Json → Except String NormalizedMcpStartTransferRequest
  tunnelExchange : Json → Except String McpExchangeRequest
  udpExchange : Json → Except String McpExchangeRequest
  customScript : CustomScript → Except String Unit
  /-- `described_mcp_approval_target`, which can fail on the arguments it would show. -/
  described : AppState → IpcRequest → Except String Unit
  /-- `validate_ipc_write_args`. -/
  writeArgs : AppState → IpcRequest → Except String Unit

/-- The session a write is for, or none for the host. -/
def ipcWriteSessionId (checks : RequestChecks) (app : AppState) (request : IpcRequest) :
    Except String (Option String) := do
  if request.command = "tunnel_request" ∨ request.command = "udp_request" then
    validateMcpOperationId (← ipcStringArg request.args "tunnelId") "tunnel"
    return none
  else if request.command = "restart_mcp_http" ∨ request.command = "run_custom_script" then
    return none
  else if request.command = "create_tunnel" then
    match ← checks.tunnelRequest request.args with
    | .ssh sessionId => return some sessionId
    | .portmateHost => return none
  else if request.command = "start_transfer" then
    match ← checks.startTransfer request.args with
    | .path sessionId | .inline sessionId => return some sessionId
    | .upload uploadId => return some (← app.uploads request.clientId uploadId).sessionId
  else if request.command = "cancel_transfer" ∨ request.command = "retry_transfer" then
    let transferId ← ipcStringArg request.args "transferId"
    validateMcpOperationId transferId "transfer"
    match app.store.transferById transferId with
    | some transfer => return some transfer.sessionId
    | none => throw "unknown or unavailable transfer"
  else if request.command = "stop_tunnel" then
    let tunnelId ← ipcStringArg request.args "tunnelId"
    validateMcpOperationId tunnelId "tunnel"
    match app.openTunnel? tunnelId with
    | none => throw "unknown or unavailable tunnel"
    | some runtime =>
      if runtime.spec.egress = .portmateHost then
        let owner ← mcpHostRouteOwnerId request.clientId
        if runtime.sessionId ≠ owner then
          throw "host route not found or owned by another MCP client"
        return none
      else return some runtime.sessionId
  else return some (← ipcStringArg request.args "sessionId")

def CustomScript.allowsHostClient (script : CustomScript) (clientId : String) : Bool :=
  script.mcpEnabled && script.host.allowedClientIds.any fun id => id = clientId

def hostScriptForClient (checks : RequestChecks) (store : SessionStore) (id : String)
    (client : Option String) : Except String CustomScript := do
  match store.customScripts.find? fun script => script.id = id with
  | none => throw "unknown or unavailable host script"
  | some script =>
    checks.customScript script
    if client.any fun id => !script.allowsHostClient id then
      throw "host script is not exposed to this MCP client"
    return script

/-- The commands `described_mcp_approval_target` has a text for. -/
def describedCommands : List String :=
  ["send_text", "run_command", "run_local_command", "send_bytes", "send_key", "start_transfer",
    "cancel_transfer", "retry_transfer", "attach_tmux", "stop_tunnel"]

/-- What the authorization remembers of the target of a write. -/
inductive McpWriteExecutionContext
  | generic
  | customScript (scriptId : String) (updatedAt : DateTime)
  | tunnel
  | tunnelExchange (tunnelId ownerId runtimeId : String)
  | described
  deriving DecidableEq

def decodeExchange (checks : RequestChecks) (request : IpcRequest) :
    Except String McpExchangeRequest :=
  if request.command = "tunnel_request" then checks.tunnelExchange request.args
  else checks.udpExchange request.args

/-- Whether an exchange still names the captured tunnel; for another command it does not. -/
def exchangeMoved (request : IpcRequest) (tunnelId : String) : Except String Bool :=
  if request.command = "tunnel_request" ∨ request.command = "udp_request" then
    (ipcStringArg request.args "tunnelId").map fun current => decide (current ≠ tunnelId)
  else .ok true

def captureMcpWriteExecutionContext (checks : RequestChecks) (app : AppState)
    (request : IpcRequest) : Except String McpWriteExecutionContext := do
  if request.command = "tunnel_request" ∨ request.command = "udp_request" then
    let exchange ← decodeExchange checks request
    let ownerId ← mcpHostRouteOwnerId request.clientId
    match (app.openTunnel? exchange.tunnelId).filter fun runtime =>
        runtime.sessionId = ownerId ∧ runtime.spec.egress = .portmateHost with
    | none => throw "host route not found or owned by another MCP client"
    | some runtime => return .tunnelExchange exchange.tunnelId ownerId runtime.sshRuntimeId
  else
    if request.command = "create_tunnel" then
      match ← checks.tunnelRequest request.args with
      | .portmateHost => return .tunnel
      | .ssh _ => pure ()
    if request.command ∈ describedCommands then
      checks.described app request
      return .described
    if request.command ≠ "run_custom_script" then return .generic
    let scriptId ← ipcStringArg request.args "scriptId"
    let script ← hostScriptForClient checks app.store scriptId (some request.clientId)
    return .customScript script.id script.updatedAt

/-- The captured target is still the one the request names. -/
def McpWriteExecutionContext.revalidate (checks : RequestChecks) (app : AppState)
    (request : IpcRequest) : McpWriteExecutionContext → Except String Unit
  | .tunnelExchange tunnelId ownerId runtimeId => do
    if ← exchangeMoved request tunnelId then
      throw "MCP tunnel target changed after authorization; request was not executed"
    match (app.openTunnel? tunnelId).filter fun runtime =>
        runtime.sessionId = ownerId ∧ runtime.sshRuntimeId = runtimeId ∧
          runtime.spec.egress = .portmateHost with
    | none => throw "MCP tunnel was stopped or replaced after authorization"
    | some current =>
      let targetHost := (request.args.get? "targetHost").bind Json.asStr?
      let targetPort := (request.args.get? "targetPort").bind Json.asU64?
      if current.spec.mode = .dynamic then
        if targetHost.isNone || targetPort.isNone then
          throw "dynamic MCP tunnel requests require targetHost and targetPort"
      else if targetHost.isSome || targetPort.isSome then
        throw "fixed MCP tunnel requests must not override targetHost or targetPort"
  | .customScript scriptId updatedAt => do
    let currentScriptId ← ipcStringArg request.args "scriptId"
    if currentScriptId ≠ scriptId then
      throw "MCP custom script target changed after authorization; request was not executed"
    let script ← hostScriptForClient checks app.store scriptId (some request.clientId)
    if script.updatedAt ≠ updatedAt then
      throw "MCP custom script changed after authorization; review and approve it again"
  | _ => pure ()

end PortMate
