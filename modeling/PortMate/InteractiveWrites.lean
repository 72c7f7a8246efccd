import PortMate.Batches
import PortMate.RustText

namespace PortMate

def interactiveWriteQueueCapacity : Nat := 256
def interactiveWriteBatchMaxBytes : Nat := 16 * 1024

/-- What the maps of the registry hold for one session. -/
structure InstalledRuntime where
  runtimeId : String
  closed : Bool
  deriving DecidableEq

structure SessionRuntimes where
  ssh : Option InstalledRuntime := none
  shell : Option InstalledRuntime := none
  tcp : Option InstalledRuntime := none
  serial : Option InstalledRuntime := none
  deriving DecidableEq

namespace SessionRuntimes

def installed (runtimes : SessionRuntimes) : List InstalledRuntime :=
  [runtimes.ssh, runtimes.shell, runtimes.tcp, runtimes.serial].filterMap id

def currentSessionRuntimeId (runtimes : SessionRuntimes) : Except String (Option String) :=
  (runtimes.installed.filter fun runtime => !runtime.closed).foldlM
    (fun current runtime =>
      if current.isSome then .error "会话存在多个活动连接，拒绝发送输入"
      else .ok (some runtime.runtimeId)) none

/-- The runtime whose writer is taken; the maps are asked one after the other. -/
def writerFor (runtimes : SessionRuntimes) (runtimeId : String) : Option InstalledRuntime :=
  runtimes.installed.find? fun runtime => runtime.runtimeId = runtimeId

end SessionRuntimes

/-- `completion`: the caller that waits for the answer; `cancellation`: the flag that it sets when
it waits no more. -/
structure InteractiveWriteRequest where
  runtimeId : String
  text : String
  wireBytes : Option (List UInt8) := none
  coalesce : Bool := false
  sensitive : Bool := false
  completion : Option Nat := none
  cancellation : Option Nat := none
  deriving DecidableEq

/-- The arguments of `enqueue_interactive_payload_with_completion`. -/
structure InteractivePayload where
  text : String
  wireBytes : Option (List UInt8) := none
  coalesce : Bool := false
  sensitive : Bool := false
  runtimeId : Option String := none
  completion : Option Nat := none
  cancellation : Option Nat := none

/-- A batch of the writer is its first request, with the texts of the others joined to its own. -/
structure WriteBatch where
  request : InteractiveWriteRequest
  members : List InteractiveWriteRequest
  deriving DecidableEq

/-- The conditions on the next request under which it is not left for the following batch. -/
def InteractiveWriteRequest.joins (next : InteractiveWriteRequest) (batch : InteractiveWriteRequest) :
    Bool :=
  batch.completion.isNone && next.completion.isNone && next.cancellation.isNone && next.coalesce &&
    next.sensitive == batch.sensitive && next.wireBytes.isNone && batch.wireBytes.isNone &&
    next.runtimeId == batch.runtimeId &&
    byteLength next.text ≤ interactiveWriteBatchMaxBytes - byteLength batch.text

/-- What became of requests that left the queue. -/
inductive TakenRequest
  | skipped (request : InteractiveWriteRequest)
  | batch (batch : WriteBatch)
  deriving DecidableEq

/-- A write that has taken the writer of a runtime. -/
structure InteractiveWrite where
  runtime : InstalledRuntime
  batch : WriteBatch
  wire : List UInt8
  deriving DecidableEq

inductive WriterPhase
  | top
  | waiting
  | merging (batch : WriteBatch)
  | formed (batch : WriteBatch)
  | matched (batch : WriteBatch)
  | written (write : InteractiveWrite)
  | stopped
  deriving DecidableEq

/-- What is handed to the queue that persists the input. -/
structure DeferredInput where
  text : String
  wireBytes : List UInt8
  sensitive : Bool
  deriving DecidableEq

def InteractiveWrite.deferredInput (write : InteractiveWrite) : DeferredInput :=
  ⟨write.batch.request.text, write.wire, write.batch.request.sensitive⟩

/-- The queue of one session with its writer, and the registry around it. -/
structure InteractiveQueue where
  runtimes : SessionRuntimes := {}
  accepting : Bool := true
  cancelled : Bool := false
  flags : List Nat := []
  waiting : List InteractiveWriteRequest := []
  pending : Option InteractiveWriteRequest := none
  phase : WriterPhase := .top
  answers : List (Nat × Except String Unit) := []
  published : List String := []
  accepted : List InteractiveWriteRequest := []
  taken : List TakenRequest := []
  writes : List InteractiveWrite := []
  deferred : List DeferredInput := []

namespace InteractiveQueue

def answer (queue : InteractiveQueue) (completion : Option Nat) (result : Except String Unit) :
    InteractiveQueue :=
  { queue with answers := queue.answers ++ (completion.map fun ticket => (ticket, result)).toList }

def report (queue : InteractiveQueue) (completion : Option Nat) (error : String) :
    InteractiveQueue :=
  { queue.answer completion (.error error) with
    published := queue.published ++ if completion.isNone then [error] else [] }

def flagged (queue : InteractiveQueue) (cancellation : Option Nat) : Bool :=
  cancellation.any queue.flags.contains

/-- `runtimes`: the registry as the caller has read it, perhaps a while ago. -/
def enqueueInteractivePayload (queue : InteractiveQueue) (runtimes : SessionRuntimes)
    (payload : InteractivePayload) : Except String Unit × InteractiveQueue :=
  if (payload.wireBytes.map List.isEmpty).getD payload.text.isEmpty then (.ok (), queue)
  else
    match runtimes.currentSessionRuntimeId with
    | .error error => (.error error, queue)
    | .ok none => (.error "会话尚未连接，无法发送输入", queue)
    | .ok (some runtimeId) =>
      if payload.runtimeId.any (· != runtimeId) then
        (.error "连接已变化，已拒绝旧连接的终端输入", queue)
      else if !queue.accepting then (.error "终端输入队列正在关闭", queue)
      else if queue.cancelled then (.error "终端输入队列已关闭", queue)
      else if queue.phase = .stopped then
        (.error "终端输入队列已关闭", queue.answer payload.completion (.error "终端输入队列已关闭"))
      else if interactiveWriteQueueCapacity ≤ queue.waiting.length then
        (.error "终端输入队列已满，请稍后重试",
          queue.answer payload.completion (.error "终端输入队列已满，请稍后重试"))
      else
        let request : InteractiveWriteRequest :=
          { runtimeId
            text := payload.text
            wireBytes := payload.wireBytes
            coalesce := payload.coalesce
            sensitive := payload.sensitive
            completion := payload.completion
            cancellation := payload.cancellation }
        (.ok (), { queue with
          waiting := queue.waiting ++ [request], accepted := queue.accepted ++ [request] })

/-- What the writer takes next: the request left over, or else the front of the channel. -/
def next (queue : InteractiveQueue) : Option (InteractiveWriteRequest × InteractiveQueue) :=
  match queue.pending, queue.waiting with
  | some request, _ => some (request, { queue with pending := none })
  | none, request :: waiting => some (request, { queue with waiting })
  | none, [] => none

/-- A first request opens a batch, unless its caller waits no more. -/
def begin (queue : InteractiveQueue) (first : InteractiveWriteRequest) : InteractiveQueue :=
  if queue.flagged first.cancellation then
    { queue.answer first.completion (.error "终端写入确认已超时，请求在执行前取消") with
      phase := .top, taken := queue.taken ++ [.skipped first] }
  else { queue with phase := .merging ⟨first, [first]⟩ }

/-- One round of the loop that drains what is already queued. -/
def drain (queue : InteractiveQueue) (batch : WriteBatch) : InteractiveQueue :=
  let formed := { queue with phase := .formed batch, taken := queue.taken ++ [.batch batch] }
  if batch.request.coalesce && byteLength batch.request.text < interactiveWriteBatchMaxBytes &&
      !queue.cancelled then
    match queue.waiting with
    | [] => formed
    | next :: waiting =>
      if next.joins batch.request then
        { queue with
          waiting
          phase := .merging
            ⟨{ batch.request with text := batch.request.text ++ next.text }, batch.members ++ [next]⟩ }
      else { formed with waiting, pending := some next }
  else formed

def refuse (queue : InteractiveQueue) (batch : WriteBatch) (error : String) : InteractiveQueue :=
  { queue.report batch.request.completion error with phase := .top }

/-- A batch whose connection is gone is dropped. -/
def dropStale (queue : InteractiveQueue) (batch : WriteBatch) : InteractiveQueue :=
  { queue.answer batch.request.completion (.error "会话已关闭或被新连接替换") with phase := .top }

def check (queue : InteractiveQueue) (batch : WriteBatch) : InteractiveQueue :=
  if queue.cancelled then
    { queue.answer batch.request.completion (.error "终端输入队列已关闭") with phase := .stopped }
  else
    match queue.runtimes.currentSessionRuntimeId with
    | .ok (some current) =>
      if current = batch.request.runtimeId then { queue with phase := .matched batch }
      else queue.dropStale batch
    | .ok none => queue.dropStale batch
    | .error error => queue.refuse batch error

/-- `encoded`: the text in the form of the connection; `failure`: the lanes or the write fail. -/
def write (queue : InteractiveQueue) (batch : WriteBatch) (encoded : List UInt8)
    (failure : Option String) : InteractiveQueue :=
  if queue.cancelled then queue.refuse batch "终端输入队列已关闭"
  else if queue.flagged batch.request.cancellation then
    queue.refuse batch "终端写入确认已超时，请求在执行前取消"
  else
    match queue.runtimes.writerFor batch.request.runtimeId with
    | none => queue.refuse batch "触发动作来源连接已关闭或被新连接替换"
    | some runtime =>
      let wire := batch.request.wireBytes.getD encoded
      let write : InteractiveWrite := ⟨runtime, batch, wire⟩
      let queue := { queue with writes := queue.writes ++ [write] }
      match failure with
      | some error => queue.refuse batch error
      | none => { queue with phase := .written write }

/-- Only the write to a connection that is still installed is confirmed and kept. -/
def confirm (queue : InteractiveQueue) (write : InteractiveWrite) : InteractiveQueue :=
  if queue.runtimes.installed.any fun runtime => runtime.runtimeId = write.batch.request.runtimeId then
    { queue.answer write.batch.request.completion (.ok ()) with
      phase := .top, deferred := queue.deferred ++ [write.deferredInput] }
  else queue.refuse write.batch "连接已变化，未确认旧连接的终端写入"

end InteractiveQueue

/-- What callers and the registry do, and the steps of the writer. In a turn, the writer receives
or is stopped. -/
inductive WriterEvent
  | enqueue (runtimes : SessionRuntimes) (payload : InteractivePayload)
  | runtimesChanged (runtimes : SessionRuntimes)
  | flagSet (flag : Nat)
  | shutdown
  | cleared
  | turn (receives : Bool)
  | drain
  | check
  | write (encoded : List UInt8) (failure : Option String)
  | confirm

namespace InteractiveQueue

def turn (queue : InteractiveQueue) (receives : Bool) : InteractiveQueue :=
  match queue.phase, receives with
  | .top, _ => { queue with phase := if queue.cancelled then .stopped else .waiting }
  | .waiting, true =>
    match queue.next with
    | some (first, queue) => queue.begin first
    | none => queue
  | .waiting, false => { queue with phase := if queue.cancelled then .stopped else .waiting }
  | _, _ => queue

def step (queue : InteractiveQueue) : WriterEvent → InteractiveQueue
  | .enqueue runtimes payload => (queue.enqueueInteractivePayload runtimes payload).2
  | .runtimesChanged runtimes => { queue with runtimes }
  | .flagSet flag => { queue with flags := flag :: queue.flags }
  | .shutdown => { queue with accepting := false }
  | .cleared => { queue with cancelled := true }
  | .turn receives => queue.turn receives
  | .drain => match queue.phase with | .merging batch => queue.drain batch | _ => queue
  | .check => match queue.phase with | .formed batch => queue.check batch | _ => queue
  | .write encoded failure =>
    match queue.phase with | .matched batch => queue.write batch encoded failure | _ => queue
  | .confirm => match queue.phase with | .written write => queue.confirm write | _ => queue

def run (queue : InteractiveQueue) (events : List WriterEvent) : InteractiveQueue :=
  events.foldl step queue

end InteractiveQueue

end PortMate
