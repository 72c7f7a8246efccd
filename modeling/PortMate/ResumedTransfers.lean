import PortMate.Transducer

namespace PortMate

open Function

/-- A path once it is resolved. What a server shows are files of the same space, so that it may be
the desktop itself. -/
structure FilePlace where
  directory : List String
  name : String
  deriving DecidableEq

inductive FileNode
  | file (content : List UInt8) (links : Nat)
  | symbolicLink
  | other
  deriving DecidableEq

abbrev Files := FilePlace → Option FileNode

namespace FilePlace

def display (path : FilePlace) : String := "/" ++ "/".intercalate (path.directory ++ [path.name])

end FilePlace

/-- The content of a regular file with one link. -/
def localTransferEntry (files : Files) (path : FilePlace) (label : String) :
    Except String (Option (List UInt8)) :=
  match files path with
  | none => .ok none
  | some .symbolicLink => .error s!"{label}不能是符号链接: {path.display}"
  | some .other => .error s!"{label}不是普通文件: {path.display}"
  | some (.file content links) =>
    if links ≠ 1 then .error s!"{label}不能是硬链接: {path.display}" else .ok (some content)

/-- `sftp_regular_file_size` of a server that answers; the links of its files are not known. -/
def sftpRegularFile (files : Files) (path : FilePlace) (label : String) :
    Except String (Option (List UInt8)) :=
  match files path with
  | none => .ok none
  | some .symbolicLink => .error s!"{label}不能是符号链接: {path.display}"
  | some .other => .error s!"{label}不是普通文件: {path.display}"
  | some (.file content _) => .ok (some content)

structure ReadHandle where
  content : List UInt8
  position : Nat
  deriving DecidableEq

namespace ReadHandle

def seek (handle : ReadHandle) (position : Nat) : ReadHandle := { handle with position := position }

def next (handle : ReadHandle) (count : Nat) : List UInt8 :=
  (handle.content.drop handle.position).take count

def advance (handle : ReadHandle) (count : Nat) : ReadHandle :=
  { handle with position := handle.position + count }

/-- `read_exact`: nothing at an unexpected end. -/
def readExact (handle : ReadHandle) (count : Nat) : Option (List UInt8 × ReadHandle) :=
  if (handle.next count).length = count then some (handle.next count, handle.advance count) else none

end ReadHandle

inductive CopyEngine
  | localCopy | sftpDownload
  deriving DecidableEq

namespace CopyEngine

def bufferSize : CopyEngine → Nat
  | localCopy => 64 * 1024
  | sftpDownload => 256 * 1024

/-- `sftp_read_buffer_len` keeps one byte at the expected end, to see a source that grew. -/
def readCapacity (copied total : Nat) : CopyEngine → Nat
  | localCopy => localCopy.bufferSize
  | sftpDownload => min sftpDownload.bufferSize (max (total - copied) 1)

def label : CopyEngine → String
  | localCopy => "local transfer"
  | sftpDownload => "SFTP download"

/-- The source with its size; a server says a size of its own. -/
def openSource (engine : CopyEngine) (files : Files) (source : FilePlace) (declared : Nat) :
    Except String (ReadHandle × Nat) :=
  match engine with
  | localCopy =>
    match localTransferEntry files source "local transfer" with
    | .error error => .error error
    | .ok none => .error s!"local transfer不存在: {source.display}"
    | .ok (some content) => .ok (⟨content, 0⟩, content.length)
  | sftpDownload =>
    match sftpRegularFile files source "SFTP 远端源文件" with
    | .error error => .error error
    | .ok none => .error s!"SFTP 远端源文件不存在: {source.display}"
    | .ok (some content) => .ok (⟨content, 0⟩, declared)

end CopyEngine

def localResumePartPath (target : FilePlace) : FilePlace :=
  { target with name := target.name ++ ".portmate-part" }

def removeFile (files : Files) (path : FilePlace) : Files := update files path none

/-- A part that is larger than the source is removed. -/
def localResumeOffset (files : Files) (part : FilePlace) (total : Nat) :
    Except String (Files × List UInt8) :=
  match localTransferEntry files part "本地断点文件" with
  | .error error => .error error
  | .ok none => .ok (files, [])
  | .ok (some content) =>
    if content.length ≤ total then .ok (files, content) else .ok (removeFile files part, [])

/-- From the start the part is made anew, and at an offset it is appended to. -/
def openLocalResumeWriter (files : Files) (part : FilePlace) (offset : Nat) : Except String Files :=
  match localTransferEntry files part "本地断点文件" with
  | .error error => .error error
  | .ok existing =>
    if offset = 0 ∨ existing = none then .ok (update files part (some (.file [] 1)))
    else .ok files

def appendFile (files : Files) (path : FilePlace) (bytes : List UInt8) : Files :=
  match files path with
  | some (.file content links) => update files path (some (.file (content ++ bytes) links))
  | _ => files

def finalizeLocalResumeFile (files : Files) (temp target : FilePlace) : Except String Files :=
  match localTransferEntry files temp "本地断点文件" with
  | .error error => .error error
  | .ok none => .error s!"本地断点文件不存在: {temp.display}"
  | .ok (some _) =>
    match localTransferEntry files target "本地目标文件" with
    | .error error => .error error
    | .ok _ => .ok (removeFile (update files target (files temp)) temp)

def transferSizeMismatch (label : String) (copied total : Nat) : String :=
  s!"{label} size mismatch: copied {copied}, expected {total}"

inductive CopyPhase
  | opening
  | sizing (input : ReadHandle) (total : Nat)
  | comparing (input part : ReadHandle) (compared offset total : Nat)
  | creating (input : ReadHandle) (offset total : Nat)
  | copying (input : ReadHandle) (copied total : Nat)
  | finishing (copied : Nat)
  | done (result : Except String Nat)

/-- The next operation goes through, a read with so many bytes; or it breaks, after so many of the
bytes that were read are written. -/
inductive CopyEvent
  | passes (count : Nat)
  | breaks (count written : Nat) (error : String)

section Copy

variable (engine : CopyEngine) (source target : FilePlace)

/-- The bytes of one read: some, unless it is the end. -/
def CopyEngine.chunk (input : ReadHandle) (copied total count : Nat) : List UInt8 :=
  input.next (min (engine.readCapacity copied total) (max 1 count))

def copyPasses (files : Files) (count : Nat) : CopyPhase → Files × CopyPhase
  | .opening =>
    match engine.openSource files source count with
    | .error error => (files, .done (.error error))
    | .ok (input, total) => (files, .sizing input total)
  | .sizing input total =>
    match localResumeOffset files (localResumePartPath target) total with
    | .error error => (files, .done (.error error))
    | .ok (files, part) =>
      if part.length = 0 then (files, .creating input 0 total)
      else (files, .comparing (input.seek 0) ⟨part, 0⟩ 0 part.length total)
  | .comparing input part compared offset total =>
    if compared < offset then
      let take := min (offset - compared) engine.bufferSize
      match input.readExact take, part.readExact take with
      | some (left, input), some (right, part) =>
        if left = right then (files, .comparing input part (compared + take) offset total)
        else (files, .creating (input.seek 0) 0 total)
      | _, _ => (files, .creating (input.seek 0) 0 total)
    else (files, .creating (input.seek offset) offset total)
  | .creating input offset total =>
    match openLocalResumeWriter files (localResumePartPath target) offset with
    | .error error => (files, .done (.error error))
    | .ok files => (files, .copying input offset total)
  | .copying input copied total =>
    let chunk := engine.chunk input copied total count
    if chunk.length = 0 then
      if copied = total then (files, .finishing copied)
      else (files, .done (.error (transferSizeMismatch engine.label copied total)))
    else
      let files := appendFile files (localResumePartPath target) chunk
      let copied := copied + chunk.length
      if copied ≤ total then (files, .copying (input.advance chunk.length) copied total)
      else (files, .done (.error (transferSizeMismatch engine.label copied total)))
  | .finishing copied =>
    match finalizeLocalResumeFile files (localResumePartPath target) target with
    | .error error => (files, .done (.error error))
    | .ok files => (files, .done (.ok copied))
  | .done result => (files, .done result)

/-- What is on the disk once the operation broke. -/
def copyBreaks (files : Files) (count written : Nat) : CopyPhase → Files
  | .creating _ 0 _ => if written = 0 then files else removeFile files (localResumePartPath target)
  | .copying input copied total =>
    appendFile files (localResumePartPath target)
      ((engine.chunk input copied total count).take written)
  | _ => files

def copyStep : Files × CopyPhase → CopyEvent → Files × CopyPhase
  | (files, .done result), _ => (files, .done result)
  | (files, phase), .passes count => copyPasses engine source target files count phase
  | (files, phase), .breaks count written error =>
    (copyBreaks engine target files count written phase, .done (.error error))

def copyMachine : Transducer (Files × CopyPhase) CopyEvent Unit where
  step state event := (copyStep engine source target state event, [])

end Copy

/-- A run of `copy_local_file_for_transfer` or `sftp_download`. -/
structure CopyAttempt where
  engine : CopyEngine
  events : List CopyEvent

namespace CopyAttempt

def run (source target : FilePlace) (files : Files) (attempt : CopyAttempt) :
    Files × CopyPhase :=
  ((copyMachine attempt.engine source target).run (files, .opening) attempt.events).1

def after (source target : FilePlace) : Files → List CopyAttempt → Files
  | files, [] => files
  | files, attempt :: attempts => after source target (attempt.run source target files).1 attempts

end CopyAttempt

end PortMate
