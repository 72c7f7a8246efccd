import Mathlib.Data.String.Basic
import PortMate.LogPaths

namespace PortMate

section Plans

structure FileBatchPlanFile where
  source : List Char
  relative : List Char
  size : Nat
  deriving DecidableEq

structure FileBatchPlan where
  directories : List (List Char)
  files : List FileBatchPlanFile
  skipped : List (List Char)
  deriving DecidableEq

inductive BatchTargetKind
  | missing | file | directory | other
  deriving DecidableEq

inductive TransferConflictPolicy
  | fail | overwrite | skip | rename
  deriving DecidableEq

def validateBatchConflictPolicy (destinationRemote : Bool) (policy : TransferConflictPolicy) :
    Except String Unit :=
  if destinationRemote && policy = .overwrite then
    .error "远端目标不支持安全覆盖，请选择失败、跳过或重命名"
  else .ok ()

def isPathSeparator (c : Char) : Bool := c = '/' || c = '\\'

def batchPathDepth (path : List Char) : Nat :=
  ((path.splitOnP isPathSeparator).filter fun part => !part.isEmpty).length

/-- Directories are ordered by their depth, and then by their text. -/
def directoryLe (left right : List Char) : Bool :=
  batchPathDepth left < batchPathDepth right ||
    (batchPathDepth left = batchPathDepth right && left ≤ right)

/-- The first of two neighbours that are the same. -/
def sameNeighbours : List (List Char) → Option (List Char)
  | first :: second :: rest => if first = second then some first else sameNeighbours (second :: rest)
  | _ => none

/-- The loop over the files, with the relative paths seen so far. -/
def conflictingFile (directories seen : List (List Char)) :
    List FileBatchPlanFile → Option (List Char)
  | [] => none
  | file :: files =>
    if directories.contains file.relative || seen.contains file.relative then some file.relative
    else conflictingFile directories (file.relative :: seen) files

/-- `dedup` of a vector. -/
def dedupNeighbours : List (List Char) → List (List Char)
  | first :: second :: rest =>
    if first = second then dedupNeighbours (second :: rest)
    else first :: dedupNeighbours (second :: rest)
  | rest => rest

def sortTexts (texts : List (List Char)) : List (List Char) :=
  texts.mergeSort fun left right => decide (left ≤ right)

def validateFileBatchPlan (plan : FileBatchPlan) : Except String FileBatchPlan :=
  let directories := plan.directories.mergeSort directoryLe
  match sameNeighbours directories with
  | some conflict => .error s!"文件批次包含冲突的目标目录: {String.ofList conflict}"
  | none =>
    let files := plan.files.mergeSort fun left right => decide (left.relative ≤ right.relative)
    match conflictingFile directories [] files with
    | some conflict => .error s!"文件批次包含冲突的目标路径: {String.ofList conflict}"
    | none => .ok { directories, files, skipped := dedupNeighbours (sortTexts plan.skipped) }

def validateBatchRelativePath (path : List Char) : Except String Unit :=
  if path.isEmpty || path.contains '\x00' || path.any (fun c => c = '\\' || c = ':') ||
      (path.splitOn '/').any fun part => part.isEmpty || part = ['.'] || part = ['.', '.'] then
    .error s!"批次相对路径无效: {String.ofList path}"
  else .ok ()

end Plans

section Paths

def trimSlashes (text : List Char) : List Char :=
  (text.dropWhile (· = '/')).rdropWhile (· = '/')

def remoteJoinPath (parent name : List Char) : List Char :=
  let name := trimSlashes name
  if parent.isEmpty || parent = ['.'] then name
  else if parent = ['/'] then '/' :: name
  else parent.rdropWhile (· = '/') ++ '/' :: name

/-- `Path::join` of a path and a relative one. -/
def localJoinPath (parent name : List Char) : List Char :=
  if parent.isEmpty || parent.getLast? = some '/' then parent ++ name
  else parent ++ '/' :: name

def batchDestinationPath (destination relative : List Char) (destinationRemote : Bool) : List Char :=
  if destinationRemote then remoteJoinPath destination relative
  else localJoinPath destination relative

def splitExtension (name : List Char) : List Char × List Char :=
  match rsplitOnce '.' name with
  | some (stem, extension) =>
    if !stem.isEmpty && !extension.isEmpty then (stem, extension) else (name, [])
  | none => (name, [])

def numberedName (name : List Char) (suffix : Nat) : List Char :=
  let (stem, extension) := splitExtension name
  if extension.isEmpty then stem ++ " (".toList ++ Nat.toDigits 10 suffix ++ [')']
  else stem ++ " (".toList ++ Nat.toDigits 10 suffix ++ ").".toList ++ extension

def numberedBatchRelativePath (path : List Char) (suffix : Nat) : Except String (List Char) := do
  validateBatchRelativePath path
  let (parent, name) := (rsplitOnce '/' path).getD ([], path)
  let renamed := numberedName name suffix
  .ok (if parent.isEmpty then renamed else parent ++ '/' :: renamed)

end Paths

section Preparation

structure PreparedFile where
  source : List Char
  relative : List Char
  target : List Char
  deriving DecidableEq

structure BatchState where
  reserved : List (List Char)
  prepared : List PreparedFile
  skipped : List (List Char)
  totalBytes : Nat
  deriving DecidableEq

/-- The destination of a batch: its directory, its side and what is there. -/
structure BatchDestination where
  directory : List Char
  remote : Bool
  kind : List Char → Except String BatchTargetKind

variable (destination : BatchDestination)

def BatchDestination.target (relative : List Char) : List Char :=
  batchDestinationPath destination.directory relative destination.remote

/-- The loop over the directories; those that are missing will be created. -/
def prepareBatchDirectories : List (List Char) → Except String (List (List Char))
  | [] => .ok []
  | relative :: directories => do
    validateBatchRelativePath relative
    let target := destination.target relative
    let kind ← destination.kind target
    match kind with
    | .missing => do
      let targets ← prepareBatchDirectories directories
      .ok (target :: targets)
    | .directory => prepareBatchDirectories directories
    | .file | .other => .error s!"目标目录路径已被非目录占用: {String.ofList target}"

/-- The loop over the suffixes: the first numbered name that is neither reserved nor there. -/
def freeNumberedPath (reserved : List (List Char)) (relative : List Char) :
    List Nat → Except String (Option (List Char × List Char))
  | [] => .ok none
  | suffix :: suffixes => do
    let candidateRelative ← numberedBatchRelativePath relative suffix
    let candidate := destination.target candidateRelative
    if reserved.contains candidate then freeNumberedPath reserved relative suffixes
    else do
      let kind ← destination.kind candidate
      if kind = .missing then .ok (some (candidateRelative, candidate))
      else freeNumberedPath reserved relative suffixes

def renameSuffixes : List Nat := List.range' 1 10000

def maxBatchBytes : Nat := 2 ^ 64

def BatchState.prepare (state : BatchState) (file : FileBatchPlanFile)
    (relative target : List Char) : Except String BatchState :=
  if maxBatchBytes ≤ state.totalBytes + file.size then .error "文件批次总大小溢出"
  else .ok { state with
    reserved := target :: state.reserved
    prepared := state.prepared ++ [{ source := file.source, relative, target }]
    totalBytes := state.totalBytes + file.size }

def prepareBatchFile (policy : TransferConflictPolicy) (state : BatchState)
    (file : FileBatchPlanFile) : Except String BatchState := do
  validateBatchRelativePath file.relative
  let target := destination.target file.relative
  let kind ← destination.kind target
  if kind ≠ .missing || state.reserved.contains target then
    match policy with
    | .fail => .error s!"目标文件已存在或批次内冲突: {String.ofList target}"
    | .skip =>
      .ok { state with
        skipped := state.skipped ++
          [file.source ++ " (destination exists: ".toList ++ target ++ [')']] }
    | .overwrite =>
      if kind = .file ∨ kind = .missing then state.prepare file file.relative target
      else .error s!"拒绝用文件覆盖非普通文件目标: {String.ofList target}"
    | .rename => do
      let renamed ← freeNumberedPath destination state.reserved file.relative renameSuffixes
      match renamed with
      | some (relative, target) => state.prepare file relative target
      | none => .error s!"无法为冲突目标生成可用名称: {String.ofList target}"
  else state.prepare file file.relative target

structure PreparedBatch where
  files : List PreparedFile
  directoryTargets : List (List Char)
  skipped : List (List Char)
  totalBytes : Nat
  deriving DecidableEq

/-- The part of `start_file_batch_inner` that decides where everything goes. -/
def prepareFileBatch (policy : TransferConflictPolicy) (plan : FileBatchPlan) :
    Except String PreparedBatch := do
  validateBatchConflictPolicy destination.remote policy
  let directoryTargets ← prepareBatchDirectories destination plan.directories
  let state ← plan.files.foldlM (prepareBatchFile destination policy)
    { reserved := [], prepared := [], skipped := plan.skipped, totalBytes := 0 }
  .ok {
    files := state.prepared
    directoryTargets := directoryTargets.mergeSort fun left right =>
      decide (batchPathDepth left ≤ batchPathDepth right)
    skipped := dedupNeighbours (sortTexts state.skipped)
    totalBytes := state.totalBytes }

end Preparation

end PortMate
