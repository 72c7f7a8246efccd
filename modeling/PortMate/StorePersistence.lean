import PortMate.SnapshotVersion
import PortMate.Transducer

namespace PortMate

def maxSessionProfiles : Nat := 10000

/-- A store about to be saved: what `validate_profile_count` looks at, and its encoding. -/
structure StoreImage where
  profileCount : Nat
  json : Blob
  deriving DecidableEq

/-- How reading the file for its content or its version goes. -/
inductive ReadOutcome
  | ok
  | failed (error : String)
  deriving DecidableEq

/-- How writing the snapshot goes: an error can also come after the snapshot is in place. -/
inductive WriteOutcome
  | written
  | rolledBack (error : String)
  | failedAfterCommit (error : String)
  deriving DecidableEq

def WriteOutcome.error? : WriteOutcome → Option String
  | .written => none
  | .rolledBack error | .failedAfterCommit error => some error

def WriteOutcome.file (write : WriteOutcome) (before : Option Snapshot) (snapshot : Snapshot) :
    Option Snapshot :=
  match write with
  | .rolledBack _ => before
  | .written | .failedAfterCommit _ => some snapshot

def ReadOutcome.read {α : Type} (outcome : ReadOutcome) (value : α) : Except String α :=
  match outcome with
  | .ok => .ok value
  | .failed error => .error error

def storeVersionUnknown : String := "PortMate store 上次提交后无法刷新版本，请重启应用后再保存"

def storeChangedElsewhere : String :=
  "PortMate store 已被另一实例修改，已拒绝陈旧写入；请重启应用加载最新数据"

def storeNotReadBack : String := "PortMate store 写入已完成，但持久化快照无法读回验证；请重启应用后再继续保存"

section Store

variable {Digest : Type} [DecidableEq Digest] (sha256 : List UInt8 → Digest) (format : StoreFormat)

/-- The snapshot a save writes; only the database keeps a revision. -/
def StoreImage.snapshot (image : StoreImage) (revision : Blob) : Snapshot :=
  match format with
  | .sqlite3 => ⟨revision, image.json⟩
  | .json => ⟨⟨[], by decide⟩, image.json⟩

structure SaveOutcome (Digest : Type) where
  result : Except String Unit
  expected : StoreSnapshotVersion Digest
  file : Option Snapshot

/-- `save_store_checked_locked_with_writer`, under the snapshot lock. -/
def saveStoreCheckedLocked (file : Option Snapshot) (image : StoreImage) (revision : Blob)
    (expected current : StoreSnapshotVersion Digest) (write : WriteOutcome) (after : ReadOutcome) :
    SaveOutcome Digest :=
  if image.profileCount > maxSessionProfiles then
    ⟨.error s!"session profile count exceeds {maxSessionProfiles}", expected, file⟩
  else if expected = .unknownAfterCommit then ⟨.error storeVersionUnknown, expected, file⟩
  else if expected ≠ current then ⟨.error storeChangedElsewhere, expected, file⟩
  else
    let written := write.file file (image.snapshot format revision)
    let version := after.read (storeSnapshotVersion sha256 format written)
    match write.error? with
    | some error =>
      let moved : Bool := match version with
        | .ok version => version ≠ current
        | .error _ => false
      ⟨.error error, if moved then .unknownAfterCommit else expected, written⟩
    | none =>
      match version with
      | .ok (.sha256 digest) => ⟨.ok (), .sha256 digest, written⟩
      | .ok _ => ⟨.error storeNotReadBack, .unknownAfterCommit, written⟩
      | .error error =>
        ⟨.error s!"PortMate store 写入已完成，但提交后版本验证失败；请重启应用: {error}",
          .unknownAfterCommit, written⟩

/-- Where an instance stands in `verify_persisted_store_commit`, which takes no lock: it compares
the content, and then reads content and revision once more for the version. -/
inductive Verification
  | idle
  | compared (content : Blob)
  | hashing (content json : Blob)
  deriving DecidableEq

/-- One process: its entry of `STORE_SNAPSHOT_VERSIONS`, absent until it has loaded the store. -/
structure Instance (Digest : Type) where
  expected : Option (StoreSnapshotVersion Digest)
  verification : Verification
  deriving DecidableEq

structure StoreWorld (ι Digest : Type) where
  file : Option Snapshot
  instances : ι → Instance Digest

inductive StoreEvent (ι : Type)
  /-- `load_store`, which writes the `initial` store when there is no file. -/
  | load (i : ι) (initial : StoreImage) (revision : Blob) (write : WriteOutcome)
      (read version : ReadOutcome)
  | save (i : ι) (image : StoreImage) (revision : Blob) (before : ReadOutcome)
      (write : WriteOutcome) (after : ReadOutcome)
  | compareContent (i : ι) (image : StoreImage) (read : ReadOutcome)
  | readContent (i : ι) (read : ReadOutcome)
  | readRevision (i : ι) (read : ReadOutcome)

inductive StoreSignal (ι : Type)
  | loaded (i : ι) (content : Blob)
  | saved (i : ι) (replaced : Option Snapshot) (content : Blob)
  | verified (i : ι) (content : Blob)
  | failed (i : ι) (error : String)
  deriving DecidableEq

namespace StoreWorld

variable {ι : Type} [DecidableEq ι]

def set (world : StoreWorld ι Digest) (i : ι) (inst : Instance Digest) : StoreWorld ι Digest :=
  { world with instances := Function.update world.instances i inst }

def load (world : StoreWorld ι Digest) (i : ι) (initial : StoreImage) (revision : Blob)
    (write : WriteOutcome) (read version : ReadOutcome) :
    StoreWorld ι Digest × List (StoreSignal ι) :=
  -- A process that cannot load the store does not start.
  let abort (file : Option Snapshot) (error : String) :=
    (({ world with file := file } : StoreWorld ι Digest).set i ⟨none, .idle⟩, [.failed i error])
  let adopt (snapshot : Snapshot) :=
    match version with
    | .failed error => abort (some snapshot) error
    | .ok =>
      (({ world with file := some snapshot } : StoreWorld ι Digest).set i
        ⟨some (storeSnapshotVersion sha256 format (some snapshot)), .idle⟩,
        [.loaded i snapshot.content])
  match world.file with
  | some snapshot =>
    match read with
    | .failed error => abort world.file error
    | .ok => adopt snapshot
  | none =>
    let snapshot := initial.snapshot format revision
    match write.error? with
    | some error => abort (write.file none snapshot) error
    | none => adopt snapshot

def save (world : StoreWorld ι Digest) (i : ι) (image : StoreImage) (revision : Blob)
    (before : ReadOutcome) (write : WriteOutcome) (after : ReadOutcome) :
    StoreWorld ι Digest × List (StoreSignal ι) :=
  match (world.instances i).expected, (world.instances i).verification with
  | some entry, .idle =>
    match before.read (storeSnapshotVersion sha256 format world.file) with
    | .error error => (world, [.failed i error])
    | .ok current =>
      -- `entry(..).or_insert(current)` finds the entry that loading the store has left.
      let saved := saveStoreCheckedLocked sha256 format world.file image revision entry current
        write after
      let next := ({ world with file := saved.file } : StoreWorld ι Digest).set i
        ⟨some saved.expected, .idle⟩
      match saved.result with
      | .error error => (next, [.failed i error])
      | .ok () => (next, [.saved i world.file image.json])
  | _, _ => (world, [])

/-- The first half of `verify_persisted_store_commit`: what is on disk against what was meant. -/
def compareContent {Value : Type} [DecidableEq Value] (decode : Blob → Option Value)
    (world : StoreWorld ι Digest) (i : ι) (image : StoreImage) (read : ReadOutcome) :
    StoreWorld ι Digest × List (StoreSignal ι) :=
  match (world.instances i).expected, (world.instances i).verification with
  | some entry, .idle =>
    match read, world.file with
    | .failed error, _ => (world, [.failed i error])
    | .ok, none => (world, [.failed i "failed to verify PortMate SQLite store"])
    | .ok, some snapshot =>
      match decode snapshot.content with
      | none => (world, [.failed i "failed to decode persisted PortMate store"])
      | some persisted =>
        if decode image.json = some persisted then
          (world.set i ⟨some entry, .compared snapshot.content⟩, [])
        else (world, [.failed i "not the intended snapshot"])
  | _, _ => (world, [])

def readContent (world : StoreWorld ι Digest) (i : ι) (read : ReadOutcome) :
    StoreWorld ι Digest × List (StoreSignal ι) :=
  match (world.instances i).verification, read, world.file with
  | .compared _, .failed error, _ =>
    (world.set i ⟨(world.instances i).expected, .idle⟩, [.failed i error])
  | .compared _, .ok, none =>
    (world.set i ⟨(world.instances i).expected, .idle⟩,
      [.failed i "persisted Store exists but has no verifiable snapshot version"])
  | .compared content, .ok, some snapshot =>
    (world.set i ⟨(world.instances i).expected, .hashing content snapshot.content⟩, [])
  | _, _, _ => (world, [])

/-- The version is taken from the content read before and the revision that is there now. -/
def readRevision (world : StoreWorld ι Digest) (i : ι) (read : ReadOutcome) :
    StoreWorld ι Digest × List (StoreSignal ι) :=
  match (world.instances i).verification, read, world.file with
  | .hashing _ _, .failed error, _ =>
    (world.set i ⟨(world.instances i).expected, .idle⟩, [.failed i error])
  | .hashing _ _, .ok, none =>
    (world.set i ⟨(world.instances i).expected, .idle⟩,
      [.failed i "persisted Store exists but has no verifiable snapshot version"])
  | .hashing content json, .ok, some snapshot =>
    (world.set i
        ⟨some (storeSnapshotVersion sha256 format (some ⟨snapshot.revision, json⟩)), .idle⟩,
      [.verified i content])
  | _, _, _ => (world, [])

end StoreWorld

/-- Any number of instances on one store file; each step that takes the snapshot lock is one
event, and a verification is three. -/
def storeInstances {ι Value : Type} [DecidableEq ι] [DecidableEq Value]
    (decode : Blob → Option Value) :
    Transducer (StoreWorld ι Digest) (StoreEvent ι) (StoreSignal ι) where
  step world
    | .load i initial revision write read version =>
      world.load sha256 format i initial revision write read version
    | .save i image revision before write after =>
      world.save sha256 format i image revision before write after
    | .compareContent i image read => world.compareContent decode i image read
    | .readContent i read => world.readContent i read
    | .readRevision i read => world.readRevision sha256 format i read

end Store

end PortMate
