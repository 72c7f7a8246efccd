import PortMate.LogShards

namespace PortMate

abbrev SpelledPath := List Char

/-- `log_root` as the store path spells it, and the links of the file system. -/
structure LogPlaces where
  root : SpelledPath
  canonical : SpelledPath → SpelledPath

structure LogNode where
  content : List UInt8
  modified : DateTime
  deriving DecidableEq

/-- What is done with one shard; a retention and a batch of deletions are one of them for each of
their shards, and reads without the lock are those of the preview, the search and the archive. -/
inductive LogOperation
  | append (bytes : List UInt8)
  | prune (days : Nat)
  | delete
  | read (offset length : Nat)
  | preview (offset length : Nat)
  deriving DecidableEq

/-- Where an operation is in the part that its lock is for. -/
inductive LogPoint
  | entered
  | writing (node written : Nat)
  | removing
  | measured
  | reading (node : Nat) (seen : List UInt8)
  deriving DecidableEq

inductive LogStage
  | starting
  | looking
  | waiting (lock : Nat)
  | working (lock : Option Nat) (point : LogPoint)
  | finished
  deriving DecidableEq

structure LogTask where
  operation : LogOperation
  path : LogPath
  started : DateTime
  stage : LogStage
  deriving DecidableEq

/-- The locks by their paths, the files by theirs, and the tasks that run at once. -/
structure LogRace where
  clock : DateTime
  locks : List (SpelledPath × Nat)
  made : Nat
  entries : List (SpelledPath × Nat)
  nodes : List LogNode
  tasks : List LogTask
  deriving DecidableEq

inductive LogRaceEvent
  | start (operation : LogOperation) (path : LogPath)
  | run (task count : Nat) (fault : Bool)
  | tick (gap : Nat)

inductive LogRaceSignal
  | decided (task : Nat)
  | appended (task node : Nat) (bytes : List UInt8)
  | removed (task node : Nat)
  | saw (task node : Nat) (bytes : List UInt8)
  deriving DecidableEq

inductive FileChange
  | none
  | create
  | write (node : Nat) (piece : List UInt8)
  | remove
  deriving DecidableEq

namespace LogPlaces

variable (places : LogPlaces)

/-- `log_root(store_path).join(relative)`. -/
def spelled (path : LogPath) : SpelledPath := places.root ++ '/' :: relativeLogPath path

def file (path : LogPath) : SpelledPath := places.canonical (places.spelled path)

end LogPlaces

namespace LogStage

def lock? : LogStage → Option Nat
  | waiting lock => some lock
  | working lock _ => lock
  | _ => none

def guard? : LogStage → Option Nat
  | working lock _ => lock
  | _ => none

def isWorking : LogStage → Bool
  | working _ _ => true
  | _ => false

end LogStage

namespace LogTask

/-- The path that `log_shard_lock` is given: an append has the path as it joins it, the others the
path that `resolve_log_shard_path` resolves. -/
def key? (places : LogPlaces) (task : LogTask) : Option SpelledPath :=
  match task.operation with
  | .append _ => some (places.spelled task.path)
  | .preview _ _ => none
  | _ => some (places.file task.path)

def cutoff (task : LogTask) (days : Nat) : DateTime := task.started - days * microsPerDay

end LogTask

namespace LogRace

def start (clock : DateTime) : LogRace := ⟨clock, [], 0, [], [], []⟩

def node? (race : LogRace) (file : SpelledPath) : Option (Nat × LogNode) :=
  (entryAt race.entries file).bind fun node => race.nodes[node]?.map fun found => (node, found)

/-- `log_shard_lock`: the locks that nothing refers to are let go of, and the path has its lock or
gets a new one. -/
def logShardLock (race : LogRace) (key : SpelledPath) : Nat × LogRace :=
  let live := race.locks.filter fun entry =>
    race.tasks.any fun task => task.stage.lock? = some entry.2
  match entryAt live key with
  | some lock => (lock, { race with locks := live })
  | none => (race.made, { race with locks := (key, race.made) :: live, made := race.made + 1 })

def change (race : LogRace) (file : SpelledPath) : FileChange → LogRace
  | .none => race
  | .create =>
    { race with
      entries := (file, race.nodes.length) :: race.entries
      nodes := race.nodes ++ [⟨[], race.clock⟩] }
  | .write node piece =>
    { race with
      nodes := race.nodes.modify node fun found => ⟨found.content ++ piece, race.clock⟩ }
  | .remove => { race with entries := race.entries.filter fun entry => entry.1 ≠ file }

def setStage (race : LogRace) (index : Nat) (task : LogTask) (stage : LogStage) : LogRace :=
  { race with tasks := race.tasks.set index { task with stage } }

def isExpired (race : LogRace) (places : LogPlaces) (task : LogTask) (days : Nat) : Bool :=
  (race.node? (places.file task.path)).any fun found => found.2.modified < task.cutoff days

/-- The look before the lock: a retention takes what is old, and all but an append only what is
there. -/
def passes (race : LogRace) (places : LogPlaces) (task : LogTask) : Bool :=
  match task.operation with
  | .append _ => true
  | .prune days => race.isExpired places task days
  | _ => (race.node? (places.file task.path)).isSome

/-- The part of an operation that its lock is for, one step of it. -/
def work (race : LogRace) (places : LogPlaces) (index : Nat) (task : LogTask) (lock : Option Nat)
    (point : LogPoint) (count : Nat) : FileChange × LogStage × List LogRaceSignal :=
  let found := race.node? (places.file task.path)
  match task.operation, point with
  | .append _, .entered =>
    match found with
    | some (node, _) => (.none, .working lock (.writing node 0), [])
    | none => (.create, .working lock (.writing race.nodes.length 0), [])
  | .append bytes, .writing node written =>
    if bytes.length ≤ written then (.none, .finished, [.appended index node bytes])
    else
      let piece := (bytes.drop written).take (count + 1)
      (.write node piece, .working lock (.writing node (written + piece.length)), [])
  | .prune days, .entered =>
    if race.isExpired places task days then (.none, .working lock .removing, [])
    else (.none, .finished, [])
  | .delete, .entered =>
    if found.isSome then (.none, .working lock .removing, []) else (.none, .finished, [])
  | .prune _, .removing | .delete, .removing =>
    match found with
    | some (node, _) => (.remove, .finished, [.removed index node])
    | none => (.none, .finished, [])
  | .read offset length, .entered | .preview offset length, .entered =>
    if (found.any fun found => offset + length ≤ found.2.content.length) then
      (.none, .working lock .measured, [])
    else (.none, .finished, [])
  | .read _ _, .measured | .preview _ _, .measured =>
    match found with
    | some (node, _) => (.none, .working lock (.reading node []), [])
    | none => (.none, .finished, [])
  | .read offset length, .reading node seen | .preview offset length, .reading node seen =>
    if length ≤ seen.length then (.none, .finished, [.saw index node seen])
    else
      let content := (race.nodes[node]?.map LogNode.content).getD []
      let piece := (content.drop (offset + seen.length)).take (min (count + 1) (length - seen.length))
      (.none, .working lock (.reading node (seen ++ piece)), [])
  | _, _ => (.none, .working lock point, [])

def runTask (race : LogRace) (places : LogPlaces) (index : Nat) (task : LogTask) (count : Nat)
    (fault : Bool) : LogRace × List LogRaceSignal :=
  if fault then (race.setStage index task .finished, [])
  else match task.stage with
  | .starting => (race.setStage index task (if race.passes places task then .looking else .finished), [])
  | .looking =>
    match task.key? places with
    | none => (race.setStage index task (.working none .entered), [])
    | some key =>
      let locked := race.logShardLock key
      (locked.2.setStage index task (.waiting locked.1), [])
  | .waiting lock =>
    if race.tasks.any fun other => other.stage.guard? = some lock then (race, [])
    else (race.setStage index task (.working (some lock) .entered), [])
  | .working lock point =>
    let done := race.work places index task lock point count
    ((race.change (places.file task.path) done.1).setStage index task done.2.1, done.2.2)
  | .finished => (race, [])

end LogRace

def logRace (places : LogPlaces) : Transducer LogRace LogRaceEvent LogRaceSignal where
  step race event :=
    match event with
    | .start operation path =>
      let started := { race with tasks := race.tasks ++ [⟨operation, path, race.clock, .starting⟩] }
      match operation with
      | .prune 0 => (race, [])
      | .prune _ => (started, [.decided race.tasks.length])
      | _ => (started, [])
    | .run index count fault =>
      match race.tasks[index]? with
      | none => (race, [])
      | some task => race.runTask places index task count fault
    | .tick gap => ({ race with clock := race.clock + gap }, [])

end PortMate
