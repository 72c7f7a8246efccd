import PortMate.ContentUploads
import PortMate.TransferEngines
import PortMate.TransferRuns

namespace PortMate

def maxMcpTransferPathBytes : Nat := 32 * 1024
def maxMcpContentTransferBase64Length : Nat := (maxMcpContentTransferBytes + 2) / 3 * 4
def mcpContentUploadMetadataVersion : Nat := 1
def mcpContentUploadStagingDirectory : String := ".mcp-transfer-staging"

def mcpContentTransferRetryError : String :=
  "MCP virtual and uploadId content transfers cannot be retried; call start_transfer again with contentBase64 or uploadId"

/-- `Option::ok_or`. -/
def okOr {α : Type} (value : Option α) (error : String) : Except String α :=
  match value with
  | none => .error error
  | some value => .ok value

theorem okOr_eq_ok_iff {α : Type} {value : Option α} {error : String} {found : α} :
    okOr value error = .ok found ↔ value = some found := by
  cases value <;> simp [okOr]

def unusableTransferPath (path : String) : Bool :=
  path.isEmpty || maxMcpTransferPathBytes < byteLength path || path.toList.contains '\x00'

def validateMcpTransferRoute (crates : EndpointCrates) (request : StartTransferRequest) :
    Except String Unit := do
  rejectIf (unusableTransferPath request.source || unusableTransferPath request.destination)
    s!"MCP transfer paths must be non-empty, NUL-free, and at most {maxMcpTransferPathBytes} bytes"
  rejectIf (hasLoadReceiverPrefix request.source)
    "MCP load: endpoint is only permitted as a Modem upload destination"
  let loadReceiver ← validateLoadReceiverEndpoint crates request.destination request.protocol
  rejectIf (loadReceiver && hasRemoteTransferPrefix request.source)
    "MCP load: transfer source must be a local desktop file"
  rejectIf (!isNonlocalTransferEndpoint request.source &&
      !isNonlocalTransferEndpoint request.destination)
    "MCP file transfer requires at least one remote:/ssh:/load: endpoint; local-to-local copy is not exposed"

def mcpTransferUsesHostPath (request : StartTransferRequest) : Bool :=
  !isNonlocalTransferEndpoint request.source || !isNonlocalTransferEndpoint request.destination

/-- The requests of a client, with their arguments already taken apart. -/
structure StartMcpContentTransferRequest where
  sessionId : String
  protocol : TransferProtocol
  fileName : String
  contentBase64 : String
  destination : String

inductive McpTransferCommand
  | path (transfer : StartTransferRequest)
  | inline (transfer : StartMcpContentTransferRequest)
  | upload (uploadId : String)
  | retry (transferId : String)

structure StoredUploadMetadata extends StagedUploadMetadata where
  version : Nat

/-- What stays over a run: the crates, the platform, and the directory of the application's data,
an absolute path. -/
structure HostFileDesktop where
  platform : LocalTransferPathPlatform
  crates : EndpointCrates
  decodeBase64 : String → Option (List UInt8)
  isUuid : String → Bool
  dataDir : String
  absolute : classifyLocalTransferPath dataDir platform = .absolute

/-- A name that is no single printable file name. -/
def unsafeMcpFileName (fileName : String) : Bool :=
  255 < byteLength fileName || fileName.isEmpty ||
    (fileName.toList.any fun c => isRustControl c || c = '/' || c = '\\' || c = ':') ||
    fileName = "." || fileName = ".."

namespace HostFileDesktop

variable (desktop : HostFileDesktop)

def stagingRoot : String :=
  joinPath desktop.platform desktop.dataDir mcpContentUploadStagingDirectory

/-- `is_mcp_content_transfer_staging_source`. -/
def isStagingSource (source : String) : Bool :=
  (pathComponents desktop.platform desktop.stagingRoot).isPrefixOf
    (pathComponents desktop.platform source).dropLast

def stagedPath (task fileName : String) : String :=
  joinPath desktop.platform (joinPath desktop.platform desktop.stagingRoot task) fileName

def validateTftpName (protocol : TransferProtocol) (fileName : String) : Except String Unit :=
  if protocol = .tftp then validateTftpFileName fileName else .ok ()

def validateMcpContentTransferRequest (request : StartMcpContentTransferRequest) :
    Except String Unit := do
  rejectIf (unsafeMcpFileName request.fileName)
    "MCP content transfer fileName must be a single printable file name without path separators"
  validateTftpName request.protocol request.fileName
  rejectIf (request.contentBase64.isEmpty ||
      maxMcpContentTransferBase64Length < byteLength request.contentBase64)
    s!"MCP contentBase64 exceeds the {maxMcpContentTransferBase64Length}-byte encoded limit"
  let content ← okOr (desktop.decodeBase64 request.contentBase64)
    "MCP contentBase64 is not valid standard Base64"
  rejectIf (maxMcpContentTransferBytes < content.length)
    s!"MCP content exceeds the {maxMcpContentTransferBytes}-byte decoded limit"
  validateMcpTransferRoute desktop.crates
    { sessionId := request.sessionId
      protocol := request.protocol
      source := request.fileName
      destination := request.destination }

def validateMcpContentUploadMetadata (metadata : StoredUploadMetadata) : Except String Unit := do
  rejectIf (metadata.version ≠ mcpContentUploadMetadataVersion ||
      !desktop.isUuid metadata.uploadId || metadata.sizeBytes = 0 ||
      maxMcpContentUploadBytes < metadata.sizeBytes)
    "invalid MCP content upload metadata"
  rejectIf (!printableId metadata.sessionId 128) "invalid MCP content upload session"
  rejectIf (unsafeMcpFileName metadata.fileName) "invalid MCP content upload file name"
  rejectIf (byteLength metadata.sha256 ≠ 64 ||
      !(utf8Bytes metadata.sha256).all fun byte => (48 ≤ byte && byte ≤ 57) || (97 ≤ byte && byte ≤ 102))
    "invalid MCP content upload SHA-256"

def validateMcpUploadedContentRoute (metadata : StoredUploadMetadata) : Except String Unit := do
  validateTftpName metadata.protocol metadata.fileName
  validateMcpTransferRoute desktop.crates
    { sessionId := metadata.sessionId
      protocol := metadata.protocol
      source := metadata.fileName
      destination := metadata.destination }

end HostFileDesktop

def retriedRequest (task : TransferTask) : StartTransferRequest where
  sessionId := task.sessionId
  protocol := task.protocol
  source := task.source
  destination := task.destination

/-- A request that passed the validation, with the store and the time of it. -/
structure Admission where
  clientId : String
  command : McpTransferCommand
  store : SessionStore
  now : DateTime

/-- The store and the uploads, as their metadata files read; the requests that passed; and, for the
proofs, every id a transfer was recorded under. -/
structure HostFileWorld where
  store : SessionStore
  uploads : String → Except String StoredUploadMetadata
  admitted : List Admission
  issued : List String

/-- What one execution meets: the new ids, the profile of the session, the home directory, how the
staging file comes out, what the checks before the queue say, and the desktop of the engine. -/
structure ExecutionSurroundings where
  taskId : String
  stagingTask : String
  settings : String → Option TransferSettings
  home : Option String
  staged : Except String Unit
  commit : Except String Unit
  entry : String → String → Except String Bool
  tftpServer : TftpReceiverSpec → Except String Unit

/-- A transfer that ran for a client: the request and the staged file, and what the engine did with
the request prepared under a home directory. -/
structure ExecutedTransfer where
  admission : Admission
  request : StartTransferRequest
  staged : Option String
  home : Option String
  prepared : StartTransferRequest
  run : EngineRun

inductive HostFileEvent
  | editGrants (grants : List McpGrant)
  | editUploads (uploads : String → Except String StoredUploadMetadata)
  | userTransfer (taskId : String) (request : StartTransferRequest)
  | editTask (taskId : String) (status : TransferStatus) (message : Option String)
      (bytesDone bytesTotal : Nat)
  | deleteSession (sessionId : String)
  | request (clientId : String) (command : McpTransferCommand) (now : DateTime)
  | execute (admission : Nat) (outside : ExecutionSurroundings)

namespace HostFileWorld

variable (desktop : HostFileDesktop)

def requireMcpHostFileScope (world : HostFileWorld) (clientId : String) (now : DateTime)
    (transfer : StartTransferRequest) : Except String Unit :=
  if !mcpTransferUsesHostPath transfer then .ok ()
  else if world.store.mcpCan (rustTrim clientId) .hostFiles (some transfer.sessionId) now then .ok ()
  else .error "MCP desktop-path transfer requires the separate host-files scope for this session; virtual content and uploadId transfers remain available with transfer scope only"

def loadMcpContentUploadMetadata (world : HostFileWorld) (clientId uploadId : String) :
    Except String StoredUploadMetadata := do
  rejectIf (!desktop.isUuid uploadId) "MCP uploadId must be a UUID"
  let metadata ← world.uploads uploadId
  rejectIf (metadata.version ≠ mcpContentUploadMetadataVersion || metadata.uploadId ≠ uploadId ||
      metadata.clientId ≠ clientId)
    "unknown or unavailable MCP content upload"
  desktop.validateMcpContentUploadMetadata metadata
  return metadata

/-- The validation of `start_transfer` and `retry_transfer`. -/
def validateTransferCommand (world : HostFileWorld) (clientId : String)
    (command : McpTransferCommand) (now : DateTime) : Except String Unit :=
  match command with
  | .path transfer => do
    validateMcpTransferRoute desktop.crates transfer
    world.requireMcpHostFileScope clientId now transfer
  | .inline transfer => desktop.validateMcpContentTransferRequest transfer
  | .upload uploadId => do
    let metadata ← world.loadMcpContentUploadMetadata desktop clientId uploadId
    desktop.validateMcpUploadedContentRoute metadata
  | .retry transferId => do
    rejectIf (!printableId transferId 128)
      "MCP transfer ID must be non-empty, printable, and at most 128 bytes"
    let task ← okOr (world.store.transferById transferId) "unknown or unavailable transfer"
    validateMcpTransferRoute desktop.crates (retriedRequest task)
    rejectIf (desktop.isStagingSource (retriedRequest task).source) mcpContentTransferRetryError
    world.requireMcpHostFileScope clientId now (retriedRequest task)

/-- The request that `execute_mcp_start_transfer` or the retry puts in, with its staged file. -/
def transferToStart (world : HostFileWorld) (admission : Admission)
    (outside : ExecutionSurroundings) : Except String (StartTransferRequest × Option String) :=
  match admission.command with
  | .path transfer => .ok (transfer, none)
  | .inline transfer => do
    desktop.validateMcpContentTransferRequest transfer
    outside.staged
    let source := desktop.stagedPath outside.stagingTask transfer.fileName
    return (⟨transfer.sessionId, transfer.protocol, source, transfer.destination⟩, some source)
  | .upload uploadId => do
    let metadata ← world.loadMcpContentUploadMetadata desktop admission.clientId uploadId
    desktop.validateMcpContentUploadMetadata metadata
    desktop.validateMcpUploadedContentRoute metadata
    outside.staged
    let source := desktop.stagedPath outside.stagingTask metadata.fileName
    return (⟨metadata.sessionId, metadata.protocol, source, metadata.destination⟩, some source)
  | .retry transferId => do
    let previous ← okOr (world.store.transferById transferId) s!"unknown transfer: {transferId}"
    rejectIf (previous.status ≠ .failed && previous.status ≠ .cancelled)
      s!"transfer {transferId} is not retryable while it is {previous.status.debug}; only failed or cancelled transfers can be retried"
    rejectIf (desktop.isStagingSource previous.source) mcpContentTransferRetryError
    return (retriedRequest previous, none)

/-- `start_transfer_inner_with_context`, up to the run of the engine. -/
def executeTransfer (world : HostFileWorld) (admission : Admission)
    (outside : ExecutionSurroundings) : Except String ExecutedTransfer := do
  let started ← world.transferToStart desktop admission outside
  let request := started.1
  let settings ← okOr (outside.settings request.sessionId) s!"unknown session: {request.sessionId}"
  let prepared ← prepareTransferRequestWithHome desktop.crates settings request desktop.platform
    outside.home
  outside.commit
  let run := runTransferEngine
    ⟨desktop.platform, desktop.crates, outside.entry, outside.tftpServer⟩ prepared
  return { admission, request, staged := started.2, home := outside.home, prepared, run }

def record (world : HostFileWorld) (taskId : String) (request : StartTransferRequest) :
    HostFileWorld :=
  { world with
    store := world.store.recordTransfer (queuedTask taskId request)
    issued := taskId :: world.issued }

end HostFileWorld

open HostFileWorld in
def hostFileMachine (desktop : HostFileDesktop) :
    Transducer HostFileWorld HostFileEvent ExecutedTransfer where
  step world event :=
    match event with
    | .editGrants grants => ({ world with store := { world.store with grants } }, [])
    | .editUploads uploads => ({ world with uploads }, [])
    | .userTransfer taskId request => (world.record taskId request, [])
    | .editTask taskId status message bytesDone bytesTotal =>
      ({ world with
        store := { world.store with
          transfers := SessionStore.editTransfer taskId (fun task =>
            { task with status, message, bytesDone, bytesTotal }) world.store.transfers } }, [])
    | .deleteSession sessionId =>
      ({ world with
        store := { world.store with
          transfers := world.store.transfers.filter fun task => task.sessionId ≠ sessionId } }, [])
    | .request clientId command now =>
      match world.validateTransferCommand desktop clientId command now with
      | .error _ => (world, [])
      | .ok () =>
        ({ world with admitted := world.admitted ++ [⟨clientId, command, world.store, now⟩] }, [])
    | .execute index outside =>
      match world.admitted[index]? with
      | none => (world, [])
      | some admission =>
        match world.executeTransfer desktop admission outside with
        | .error _ => (world, [])
        | .ok executed => (world.record outside.taskId executed.prepared, [executed])

end PortMate
