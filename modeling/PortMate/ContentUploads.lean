import PortMate.McpRequests
import PortMate.TransferStates

namespace PortMate

def maxMcpContentTransferBytes : Nat := 4 * 1024 * 1024
def maxMcpContentUploadBytes : Nat := 512 * 1024 * 1024
def maxMcpContentUploadTotalBytes : Nat := 1024 * 1024 * 1024
def maxMcpContentUploads : Nat := 16
def mcpContentUploadExpirySeconds : Nat := 24 * 60 * 60

/-- With the fields that only the staging reads. -/
structure StagedUploadMetadata extends McpContentUploadMetadata where
  clientId : String
  protocol : TransferProtocol
  sizeBytes : Nat
  sha256 : String
  createdAtUnixSeconds : Nat
  deriving DecidableEq

/-- A directory of the upload root with its files. A metadata file without content that can be
parsed is `some none`. -/
structure UploadDir where
  id : String
  metadata : Option (Option StagedUploadMetadata)
  payload : Option (List UInt8)
  lockFile : Bool
  modified : Nat
  deriving DecidableEq

structure BeginContentUploadRequest where
  sessionId : String
  protocol : TransferProtocol
  fileName : String
  sizeBytes : Nat
  sha256 : String
  destination : String
  deriving DecidableEq

/-- The root directory; the begin that holds the root lock and has passed the limits, with its client
and the normalized destination; and, for the proofs, every id that a directory was made under. -/
structure ContentUploads where
  dirs : List UploadDir
  beginning : Option (String × BeginContentUploadRequest)
  created : List String

/-- The removals of files that succeed, each if the file is there. -/
structure RemovedFiles where
  payload : Bool
  metadata : Bool
  lockFile : Bool
  directory : Bool

/-- Checks that another part of the program makes before anything is written. -/
structure BeginChecks where
  arguments : Except String Unit
  tftpFileName : Except String Unit
  authorized : Except String Unit
  destination : Except String String

structure ExpiryFiles where
  metadataReads : Bool
  modifiedReads : Bool
  lockOpens : Except String Unit
  lockFree : Bool
  removed : RemovedFiles

/-- How the files go between the root lock and the limits; `usageReads` is whether the metadata of a
directory can be read when the limits are checked. -/
structure BeginFiles where
  rootLock : Except String Unit
  now : Nat
  expiry : String → ExpiryFiles
  rootReads : Except String Unit
  usageReads : String → Bool

structure CreateFiles where
  directory : Bool
  permissions : Bool
  metadataCreated : Bool
  metadataWritten : Bool
  metadataSynced : Bool
  payloadCreated : Bool
  removed : RemovedFiles

/-- How opening the lock and the metadata goes, and what the store says about the session and the
grant. -/
structure OwnerFiles where
  lockOpens : Except String Unit
  metadataReads : Bool
  authorized : Except String Unit

structure AppendFiles extends OwnerFiles where
  payloadOpens : Except String Unit
  written : Bool
  synced : Bool

/-- `started` is the answer of the desktop: the transfer was started, or there is no desktop. -/
structure StartFiles extends OwnerFiles where
  payloadReads : Except String Unit
  started : Except String Bool
  removed : RemovedFiles

structure CancelFiles extends OwnerFiles where
  removed : RemovedFiles

def validateFileName (value : String) : Except String Unit :=
  if value.isEmpty || byteLength value > 255 || value = "." || value = ".." ||
      value.toList.any fun c => isRustControl c || c = '\x00' || c = '/' || c = '\\' || c = ':' then
    .error "fileName must be one printable file name without path separators"
  else .ok ()

def validateSha256 (value : String) : Except String Unit :=
  if byteLength value ≠ 64 ||
      !(utf8Bytes value).all fun byte => (48 ≤ byte && byte ≤ 57) || (97 ≤ byte && byte ≤ 102) then
    .error "sha256 must contain exactly 64 lowercase hexadecimal characters"
  else .ok ()

/-- The checks of a begin in their order; the normalized destination is left. -/
def validateBegin (request : BeginContentUploadRequest) (checks : BeginChecks) :
    Except String String := do
  checks.arguments
  validateFileName request.fileName
  if request.protocol = .tftp then checks.tftpFileName
  if request.sizeBytes = 0 || request.sizeBytes > maxMcpContentUploadBytes then
    throw s!"sizeBytes must be between 1 and {maxMcpContentUploadBytes}"
  validateSha256 request.sha256
  if request.sessionId.isEmpty || byteLength request.sessionId > 128 then
    throw "sessionId must be between 1 and 128 bytes"
  checks.authorized
  let destination ← checks.destination
  if !isNonlocalTransferEndpoint destination then
    throw "begin_content_upload destination must use remote:, ssh:, or load:; local-to-local copy is not exposed"
  return destination

namespace UploadDir

/-- The metadata as `read_upload_metadata` finds it. -/
def readMetadata (dir : UploadDir) (reads : Bool) : Option StagedUploadMetadata :=
  if reads then dir.metadata.join else none

def removeFiles (dir : UploadDir) (removed : RemovedFiles) : Option UploadDir :=
  let payload := if removed.payload then none else dir.payload
  let metadata := if removed.metadata then none else dir.metadata
  let lockFile := dir.lockFile && !removed.lockFile
  if removed.directory && payload.isNone && metadata.isNone && !lockFile then none
  else some { dir with payload, metadata, lockFile }

/-- A cancellation stops at the first of the two files that it cannot remove. -/
def cancelFiles (dir : UploadDir) (removed : RemovedFiles) : Option UploadDir :=
  if dir.payload.isNone || !removed.payload then some dir
  else if dir.metadata.isNone || !removed.metadata then some { dir with payload := none }
  else dir.removeFiles removed

/-- A directory whose age cannot be read is kept. -/
def expired (dir : UploadDir) (now : Nat) (files : ExpiryFiles) : Bool :=
  match dir.readMetadata files.metadataReads with
  | some metadata => mcpContentUploadExpirySeconds < now - metadata.createdAtUnixSeconds
  | none => files.modifiedReads && mcpContentUploadExpirySeconds < now - dir.modified

end UploadDir

/-- Every directory in turn; a lock file that cannot be opened ends the cleanup. -/
def cleanupExpiredUploads (now : Nat) (expiry : String → ExpiryFiles) :
    List UploadDir → List UploadDir × Except String Unit
  | [] => ([], .ok ())
  | dir :: dirs =>
    let files := expiry dir.id
    if !dir.expired now files then
      let (rest, result) := cleanupExpiredUploads now expiry dirs
      (dir :: rest, result)
    else
      match files.lockOpens with
      | .error error => (dir :: dirs, .error error)
      | .ok () =>
        let opened := { dir with lockFile := true }
        let kept := if files.lockFree then opened.removeFiles files.removed else some opened
        let (rest, result) := cleanupExpiredUploads now expiry dirs
        (kept.toList ++ rest, result)

/-- The number of directories and the sum of what they declare. -/
def uploadUsage (reads : String → Bool) (dirs : List UploadDir) : Nat × Nat :=
  dirs.foldl
    (fun (count, bytes) dir =>
      let declared := ((dir.readMetadata (reads dir.id)).map (·.sizeBytes)).getD 0
      (count + 1, min (bytes + min declared maxMcpContentUploadBytes) (2 ^ 64 - 1)))
    (0, 0)

/-- `remove_dir_all` and the like: the first directory with the id is changed or goes. -/
def replaceDir (id : String) (change : UploadDir → Option UploadDir) :
    List UploadDir → List UploadDir
  | [] => []
  | dir :: dirs =>
    if dir.id = id then (change dir).toList ++ dirs else dir :: replaceDir id change dirs

/-- What the clients get to know, and what reaches the payload. -/
inductive UploadSignal
  | began (clientId uploadId : String) (sizeBytes : Nat) (sha256 : String)
  | appended (clientId uploadId : String) (offset : Nat) (chunk : List UInt8) (accepted : Bool)
  | started (clientId uploadId : String) (payload : List UInt8)
  | cancelled (clientId uploadId : String)
  deriving DecidableEq

inductive UploadEvent
  | beginCheck (clientId : String) (request : BeginContentUploadRequest) (checks : BeginChecks)
      (files : BeginFiles)
  | beginCreate (uploadId : String) (now : Nat) (files : CreateFiles)
  | append (clientId uploadId : String) (offset : Nat) (chunk : Except String (List UInt8))
      (files : AppendFiles)
  | start (clientId uploadId : String) (files : StartFiles)
  | cancel (clientId uploadId : String) (files : CancelFiles)

namespace ContentUploads

def dir? (uploads : ContentUploads) (uploadId : String) : Option UploadDir :=
  uploads.dirs.find? fun dir => dir.id = uploadId

def replace (uploads : ContentUploads) (uploadId : String)
    (change : UploadDir → Option UploadDir) : ContentUploads :=
  { uploads with dirs := replaceDir uploadId change uploads.dirs }

/-- A begin up to its limits: it waits for the root lock, cleans up and counts. -/
def beginCheck (uploads : ContentUploads) (clientId : String) (request : BeginContentUploadRequest)
    (checks : BeginChecks) (files : BeginFiles) : ContentUploads :=
  if uploads.beginning.isSome then uploads
  else
    match validateBegin request checks with
    | .error _ => uploads
    | .ok destination =>
      match files.rootLock with
      | .error _ => uploads
      | .ok () =>
        let (dirs, cleaned) := cleanupExpiredUploads files.now files.expiry uploads.dirs
        let uploads := { uploads with dirs }
        match cleaned, files.rootReads with
        | .ok (), .ok () =>
          let (activeUploads, declaredBytes) := uploadUsage files.usageReads dirs
          if maxMcpContentUploads ≤ activeUploads then uploads
          else if maxMcpContentUploadTotalBytes < declaredBytes + request.sizeBytes then uploads
          else { uploads with beginning := some (clientId, { request with destination }) }
        | _, _ => uploads

def beginMetadata (clientId uploadId : String) (request : BeginContentUploadRequest) (now : Nat) :
    StagedUploadMetadata where
  uploadId := uploadId
  clientId := clientId
  sessionId := request.sessionId
  protocol := request.protocol
  fileName := request.fileName
  sizeBytes := request.sizeBytes
  sha256 := request.sha256
  destination := request.destination
  createdAtUnixSeconds := now

/-- The files of the new directory, and whether all of them were made. -/
def createFiles (metadata : StagedUploadMetadata) (dir : UploadDir) (files : CreateFiles) :
    UploadDir × Bool :=
  if !files.metadataCreated then (dir, false)
  else if !files.metadataWritten then ({ dir with metadata := some none }, false)
  else
    let dir := { dir with metadata := some (some metadata) }
    if !files.metadataSynced || !files.payloadCreated then (dir, false)
    else ({ dir with payload := some [] }, true)

/-- The rest of a begin: the directory and its files, under an id that no directory has. -/
def beginCreate (uploads : ContentUploads) (uploadId : String) (now : Nat) (files : CreateFiles) :
    ContentUploads × List UploadSignal :=
  match uploads.beginning with
  | none => (uploads, [])
  | some (clientId, request) =>
    let uploads := { uploads with beginning := none }
    if !files.directory || (uploads.dir? uploadId).isSome then (uploads, [])
    else
      let empty : UploadDir := ⟨uploadId, none, none, false, now⟩
      let made (dir : Option UploadDir) : ContentUploads :=
        { uploads with
          dirs := uploads.dirs ++ dir.toList
          created := uploadId :: uploads.created }
      if !files.permissions then (made (some empty), [])
      else
        let (dir, complete) :=
          createFiles (beginMetadata clientId uploadId request now) empty files
        if complete then
          (made (some dir), [.began clientId uploadId request.sizeBytes request.sha256])
        else (made (dir.removeFiles files.removed), [])

/-- The directory of an upload and its metadata, once its lock is held and its owner is checked. -/
def ownedUpload (uploads : ContentUploads) (clientId uploadId : String) (files : OwnerFiles) :
    Option (UploadDir × StagedUploadMetadata) :=
  match uploads.dir? uploadId, files.lockOpens with
  | some dir, .ok () =>
    match dir.readMetadata files.metadataReads with
    | none => none
    | some metadata =>
      if metadata.uploadId ≠ uploadId || metadata.clientId ≠ clientId then none
      else some (dir, metadata)
  | _, _ => none

def openLock (uploads : ContentUploads) (uploadId : String) (files : OwnerFiles) : ContentUploads :=
  match files.lockOpens with
  | .error _ => uploads
  | .ok () => uploads.replace uploadId fun dir => some { dir with lockFile := true }

/-- The offset, the size and the write of a chunk. -/
def appendChunk (metadata : StagedUploadMetadata) (dir : UploadDir) (offset : Nat)
    (chunk : List UInt8) (files : AppendFiles) : Option UploadDir :=
  match files.authorized, dir.payload, files.payloadOpens with
  | .ok (), some payload, .ok () =>
    let next := payload.length + chunk.length
    if offset ≠ payload.length then none
    else if next > metadata.sizeBytes || next > maxMcpContentUploadBytes then none
    else if !files.written then none
    else some { dir with payload := some (payload ++ chunk) }
  | _, _, _ => none

def append (uploads : ContentUploads) (clientId uploadId : String) (offset : Nat)
    (chunk : Except String (List UInt8)) (files : AppendFiles) :
    ContentUploads × List UploadSignal :=
  match chunk with
  | .error _ => (uploads, [])
  | .ok chunk =>
    if chunk.isEmpty || maxMcpContentTransferBytes < chunk.length then (uploads, [])
    else
      let opened := uploads.openLock uploadId files.toOwnerFiles
      match opened.ownedUpload clientId uploadId files.toOwnerFiles with
      | none => (opened, [])
      | some (dir, metadata) =>
        match appendChunk metadata dir offset chunk files with
        | none => (opened, [])
        | some written =>
          (opened.replace uploadId fun _ => some written,
            [.appended clientId uploadId offset chunk files.synced])

variable (sha256 : List UInt8 → String)

/-- The payload, if it is complete and has the declared digest. -/
def verifiedPayload (metadata : StagedUploadMetadata) (dir : UploadDir) (files : StartFiles) :
    Option (List UInt8) :=
  match files.authorized, dir.payload, files.payloadReads with
  | .ok (), some payload, .ok () =>
    if payload.length ≠ metadata.sizeBytes then none
    else if sha256 payload ≠ metadata.sha256 then none
    else some payload
  | _, _, _ => none

def startCompletedUploadTransfer (uploads : ContentUploads) (clientId uploadId : String)
    (files : StartFiles) : ContentUploads × List UploadSignal :=
  let opened := uploads.openLock uploadId files.toOwnerFiles
  match opened.ownedUpload clientId uploadId files.toOwnerFiles with
  | none => (opened, [])
  | some (dir, metadata) =>
    match verifiedPayload sha256 metadata dir files, files.started with
    | some payload, .ok true =>
      (opened.replace uploadId fun dir => dir.removeFiles files.removed,
        [.started clientId uploadId payload])
    | _, _ => (opened, [])

def cancelContentUpload (uploads : ContentUploads) (clientId uploadId : String)
    (files : CancelFiles) : ContentUploads × List UploadSignal :=
  let opened := uploads.openLock uploadId files.toOwnerFiles
  match opened.ownedUpload clientId uploadId files.toOwnerFiles with
  | none => (opened, [])
  | some (dir, _) =>
    (opened.replace uploadId fun dir => dir.cancelFiles files.removed,
      if dir.payload.isSome && files.removed.payload then [.cancelled clientId uploadId] else [])

def step (uploads : ContentUploads) : UploadEvent → ContentUploads × List UploadSignal
  | .beginCheck clientId request checks files =>
    (uploads.beginCheck clientId request checks files, [])
  | .beginCreate uploadId now files => uploads.beginCreate uploadId now files
  | .append clientId uploadId offset chunk files =>
    uploads.append clientId uploadId offset chunk files
  | .start clientId uploadId files =>
    uploads.startCompletedUploadTransfer sha256 clientId uploadId files
  | .cancel clientId uploadId files => uploads.cancelContentUpload clientId uploadId files

end ContentUploads

/-- The operations of all clients, one critical section at a time: a begin is two of them, since the
operations on an upload take its own lock only. -/
def contentUploads (sha256 : List UInt8 → String) :
    Transducer ContentUploads UploadEvent UploadSignal where
  step uploads event := uploads.step sha256 event

end PortMate
