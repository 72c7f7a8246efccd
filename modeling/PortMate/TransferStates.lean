import PortMate.RustText
import PortMate.SessionDelete
import PortMate.StoreTransactions
import PortMate.Transducer

namespace PortMate

def maxTerminalTransfersPerSession : Nat := 1000
def maxActiveTransferTasks : Nat := 5000
def maxActiveTransfersPerSession : Nat := 5000
def transferCancelledMessage : String := "transfer cancelled"

def TransferProtocol.debug : TransferProtocol → String
  | .sftp => "Sftp"
  | .scp => "Scp"
  | .tftp => "Tftp"
  | .xmodem => "Xmodem"
  | .ymodem => "Ymodem"
  | .zmodem => "Zmodem"

def TransferStatus.debug : TransferStatus → String
  | .queued => "Queued"
  | .running => "Running"
  | .completed => "Completed"
  | .failed => "Failed"
  | .cancelled => "Cancelled"

structure StartTransferRequest where
  sessionId : String
  protocol : TransferProtocol
  source : String
  destination : String

def isNonlocalTransferEndpoint (value : String) : Bool :=
  "remote:".isPrefixOf value || "ssh:".isPrefixOf value || "load:".isPrefixOf value

def transferRouteLabel (source destination : String) : String :=
  match isNonlocalTransferEndpoint source, isNonlocalTransferEndpoint destination with
  | false, true => "upload"
  | true, false => "download"
  | true, true => "remote-copy"
  | false, false => "local-copy"

/-- The characters before the last one that starts within the limit. -/
def beforeBoundary (limit : Nat) : Nat → List Char → List Char
  | index, first :: next :: rest =>
    if index + first.utf8Size ≤ limit then
      first :: beforeBoundary limit (index + first.utf8Size) (next :: rest)
    else []
  | _, _ => []

def truncateForLog (value : String) (limit : Nat) : String :=
  let trimmed := ((value.toList.dropWhile isRustWhitespace).reverse.dropWhile
    isRustWhitespace).reverse
  if (String.ofList trimmed).utf8ByteSize ≤ limit then String.ofList trimmed
  else String.ofList (beforeBoundary limit 0 trimmed) ++ "..."

/-- The in-memory store with the sink that its clones share. -/
structure TransferWorld where
  store : SessionStore
  sink : SystemEventSinkState

/-- What one operation takes from outside: the id and the time of its event, the notifier's answer
and the disk. -/
structure TransferSurroundings where
  eventId : String
  now : DateTime
  answer : TrySend
  persist : SessionStore → Except String Unit
  verify : SessionStore → Except String Bool

/-- The generations a completion is bound to, and what their registries say when it commits: the
guard of the modem runtime and whether it permits the completion, and the SSH registry with the
closed flag of each runtime. -/
structure TransferRuntimeExpectations where
  sshRuntimeId : Option String := none
  modemBinding : Bool := false
  modemGuard : Except String Bool := .ok true
  sshRuntimes : Except String (List (String × String × Bool)) := .ok []

def progressTask (bytesDone bytesTotal : Nat) (task : TransferTask) : TransferTask :=
  { task with
    bytesDone
    bytesTotal := if 0 < bytesTotal then bytesTotal else task.bytesTotal
    message := some "running" }

def queuedTask (taskId : String) (request : StartTransferRequest) : TransferTask where
  id := taskId
  sessionId := request.sessionId
  protocol := request.protocol
  source := request.source
  destination := request.destination
  bytesTotal := 0
  bytesDone := 0
  status := .queued
  message := some "queued"
  startedAt := none
  finishedAt := none

namespace SessionStore

/-- `iter_mut().find(..)` and an edit of what it finds. -/
def editTransfer (id : String) (edit : TransferTask → TransferTask) :
    List TransferTask → List TransferTask
  | [] => []
  | task :: rest => if task.id = id then edit task :: rest else task :: editTransfer id edit rest

/-- `None` sorts before every time; equal times keep their order in the list. -/
def finishedBefore (left right : Nat × Option DateTime) : Bool :=
  match left.2, right.2 with
  | none, none => left.1 ≤ right.1
  | none, some _ => true
  | some _, none => false
  | some a, some b => a < b || (a = b && left.1 ≤ right.1)

/-- The positions of the finished tasks of a session, with the times they finished at. -/
def terminalTransfers (store : SessionStore) (sessionId : String) : List (Nat × Option DateTime) :=
  (store.transfers.zipIdx.filter fun entry =>
    entry.1.sessionId = sessionId && !entry.1.pending).map fun entry => (entry.2, entry.1.finishedAt)

def trimTransferHistory (store : SessionStore) (sessionId : String) : SessionStore :=
  let terminal := store.terminalTransfers sessionId
  if terminal.length ≤ maxTerminalTransfersPerSession then store
  else
    let toDrop := terminal.length - maxTerminalTransfersPerSession
    let remove := ((terminal.mergeSort finishedBefore).take toDrop).map (·.1)
    { store with
      transfers := (store.transfers.zipIdx.filter fun entry => !remove.contains entry.2).map (·.1) }

def recordTransfer (store : SessionStore) (transfer : TransferTask) : SessionStore :=
  ({ store with transfers := store.transfers ++ [transfer] } : SessionStore).trimTransferHistory
    transfer.sessionId

def recordTransferProgress (store : SessionStore) (taskId : String) (bytesDone bytesTotal : Nat) :
    Except String TransferTask × SessionStore :=
  match store.transferById taskId with
  | none => (.error s!"unknown transfer: {taskId}", store)
  | some task =>
    if task.status = .cancelled then (.error transferCancelledMessage, store)
    else if !task.pending then (.ok task, store)
    else
      (.ok (progressTask bytesDone bytesTotal task),
        { store with
          transfers := editTransfer taskId (progressTask bytesDone bytesTotal) store.transfers })

def ensureTransferQueueCapacity (store : SessionStore) (sessionId : String) (additional : Nat) :
    Except String Unit :=
  let total := store.transfers.countP (·.pending)
  let session := store.transfers.countP fun task => task.pending && task.sessionId = sessionId
  if maxActiveTransfersPerSession < session + additional then
    .error s!"active transfer count for session has reached {maxActiveTransfersPerSession}"
  else if maxActiveTransferTasks < total + additional then
    .error s!"active transfer count has reached app limit ({maxActiveTransferTasks})"
  else .ok ()

end SessionStore

open SessionStore in
/-- The closure that queues a task; `updating` is the answer of `ensure_not_updating`. -/
def queueTransferClosure (task : TransferTask) (updating : Except String Unit)
    (outside : TransferSurroundings) : MutateClosure (Unit × List String) :=
  .read fun store =>
    match updating with
    | .error error => .done (.error error)
    | .ok () =>
      match store.profile task.sessionId with
      | none => .done (.error s!"unknown session: {task.sessionId}")
      | some _ =>
        match store.ensureTransferQueueCapacity task.sessionId 1 with
        | .error error => .done (.error error)
        | .ok () =>
          .write (store.recordTransfer task)
            ((pushSystemEvent outside.eventId outside.now outside.answer task.sessionId
              s!"PortMate: transfer queued ({task.protocol.debug}, {transferRouteLabel task.source
                task.destination})").bind fun reported => .done (.ok ((), reported.toList)))

def markRunning (now : DateTime) (task : TransferTask) : TransferTask :=
  { task with status := .running, message := some "running", startedAt := some now }

open SessionStore in
def markTransferRunningClosure (taskId : String) (request : StartTransferRequest)
    (outside : TransferSurroundings) : MutateClosure (TransferTask × List String) :=
  .read fun store =>
    match store.transferById taskId with
    | none => .done (.error s!"unknown transfer: {taskId}")
    | some task =>
      if task.status = .cancelled then .done (.error transferCancelledMessage)
      else
        .write { store with
            transfers := editTransfer taskId (markRunning outside.now) store.transfers }
          ((pushSystemEvent outside.eventId outside.now outside.answer request.sessionId
            s!"PortMate: transfer started ({request.protocol.debug}, {transferRouteLabel
              request.source request.destination})").bind fun reported =>
            .done (.ok (markRunning outside.now task, reported.toList)))

/-- What the completion turns into, its message and its bytes, once the generations that it is
bound to have been checked. -/
def checkedCompletion (store : SessionStore) (sessionId : String) (status : TransferStatus)
    (message : String) (bytes : Option Nat) (expectations : TransferRuntimeExpectations) :
    TransferStatus × String × Option Nat :=
  if status ≠ .completed then (status, message, bytes)
  else if expectations.sshRuntimeId.isSome && expectations.modemBinding then
    (.failed, "传输完成提交不能同时绑定 SSH 文件和 Modem runtime", none)
  else if expectations.modemBinding then
    match expectations.modemGuard with
    | .error error => (.failed, s!"无法复核 Modem 传输 runtime: {error}", none)
    | .ok false => (.failed, "Modem runtime 在传输完成提交前已变化或断开，请重试", none)
    | .ok true => (status, message, bytes)
  else
    match expectations.sshRuntimeId with
    | none => (status, message, bytes)
    | some expected =>
      match expectations.sshRuntimes with
      | .error error => (.failed, s!"无法复核 SSH 文件传输 runtime: {error}", none)
      | .ok runtimes =>
        let current := (runtimes.lookup sessionId).any (fun runtime =>
            runtime.1 = expected && !runtime.2) &&
          store.runtimes.any fun runtime =>
            runtime.sessionId = sessionId && runtime.status = .connected
        if current then (status, message, bytes)
        else (.failed, "SSH runtime 在文件传输完成提交前已变化或断开，请刷新后重试", none)

/-- A cancelled task stays cancelled, whatever its worker reports. -/
def finishTask (status : TransferStatus) (message : String) (bytes : Option Nat) (now : DateTime)
    (task : TransferTask) : TransferTask :=
  let ended := if task.status = .cancelled then (.cancelled, "cancelled") else (status, message)
  { task with
    bytesTotal := bytes.getD task.bytesTotal
    bytesDone := bytes.getD task.bytesDone
    status := ended.1
    message := some ended.2
    finishedAt := some now }

def cancelTask (now : DateTime) (task : TransferTask) : TransferTask :=
  if task.pending then
    { task with status := .cancelled, message := some "cancelling", finishedAt := some now }
  else task

namespace TransferWorld

/-- Every operation leaves its result, the world and the tasks it emits. -/
abbrev Outcome (α : Type) := Except String α × TransferWorld × List TransferTask

def commit {α : Type} (world : TransferWorld) (mutate : MutateClosure (α × List String))
    (outside : TransferSurroundings) : Except String α × TransferWorld :=
  let committed := commitTrackedStoreMutationWith world.store world.sink mutate outside.persist
    outside.verify
  (committed.result, { store := committed.store, sink := committed.sink })

def queueTransfer (world : TransferWorld) (taskId : String) (request : StartTransferRequest)
    (updating : Except String Unit) (outside : TransferSurroundings) : Outcome TransferTask :=
  match world.commit (queueTransferClosure (queuedTask taskId request) updating outside) outside with
  | (.error error, after) => (.error error, after, [])
  | (.ok (), after) => (.ok (queuedTask taskId request), after, [queuedTask taskId request])

def markTransferRunning (world : TransferWorld) (taskId : String) (request : StartTransferRequest)
    (outside : TransferSurroundings) : Outcome Unit :=
  match world.commit (markTransferRunningClosure taskId request outside) outside with
  | (.error error, after) => (.error error, after, [])
  | (.ok task, after) => (.ok (), after, [task])

def progress (world : TransferWorld) (taskId : String) (bytesDone bytesTotal : Nat) :
    Outcome TransferTask :=
  match world.store.recordTransferProgress taskId bytesDone bytesTotal with
  | (.error error, store) => (.error error, { world with store }, [])
  | (.ok task, store) => (.ok task, { world with store }, [task])

/-- A store that cannot be written is only logged: the change stays. -/
def cancelTransferInner (world : TransferWorld) (transferId : String)
    (validation : Except String Unit) (outside : TransferSurroundings) : Outcome TransferTask :=
  match validation with
  | .error error => (.error error, world, [])
  | .ok () =>
    match world.store.transferById transferId with
    | none => (.error s!"unknown transfer: {transferId}", world, [])
    | some task =>
      let cancelled := cancelTask outside.now task
      let store : SessionStore := { world.store with
        transfers := SessionStore.editTransfer transferId (cancelTask outside.now)
          world.store.transfers }
      (.ok cancelled, { world with store := store.trimTransferHistory cancelled.sessionId },
        [cancelled])

def finishTransferTaskForGenerations (world : TransferWorld) (taskId sessionId : String)
    (status : TransferStatus) (message : String) (bytes : Option Nat)
    (expectations : TransferRuntimeExpectations) (outside : TransferSurroundings) : Outcome Unit :=
  let (status, message, bytes) := checkedCompletion world.store sessionId status
    (truncateForLog message 2000) bytes expectations
  match world.store.transferById taskId with
  | none => (.ok (), world, [])
  | some task =>
    let finished := finishTask status message bytes outside.now task
    let store : SessionStore := { world.store with
      transfers := SessionStore.editTransfer taskId (finishTask status message bytes outside.now)
        world.store.transfers }
    let recorded := (pushSystemEvent outside.eventId outside.now outside.answer sessionId
      s!"PortMate: transfer finished ({finished.protocol.debug}, {finished.status.debug})").run
      (store.trimTransferHistory finished.sessionId) world.sink
    (.ok (), { store := recorded.store, sink := recorded.sink }, [finished])

end TransferWorld

inductive TransferEvent
  | queue (taskId : String) (request : StartTransferRequest) (updating : Except String Unit)
      (outside : TransferSurroundings)
  | markRunning (taskId : String) (request : StartTransferRequest) (outside : TransferSurroundings)
  | progress (taskId : String) (bytesDone bytesTotal : Nat)
  | cancel (transferId : String) (validation : Except String Unit) (outside : TransferSurroundings)
  | finish (taskId sessionId : String) (status : TransferStatus) (message : String)
      (bytes : Option Nat) (expectations : TransferRuntimeExpectations)
      (outside : TransferSurroundings)

/-- The operations of the window, the workers and the cancel path, one store lock at a time; the
signals are the tasks emitted to the windows. -/
def transferRuntime : Transducer TransferWorld TransferEvent TransferTask where
  step world
    | .queue taskId request updating outside =>
      (world.queueTransfer taskId request updating outside).2
    | .markRunning taskId request outside => (world.markTransferRunning taskId request outside).2
    | .progress taskId bytesDone bytesTotal => (world.progress taskId bytesDone bytesTotal).2
    | .cancel transferId validation outside =>
      (world.cancelTransferInner transferId validation outside).2
    | .finish taskId sessionId status message bytes expectations outside =>
      (world.finishTransferTaskForGenerations taskId sessionId status message bytes expectations
        outside).2

end PortMate
