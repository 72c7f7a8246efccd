import PortMate.RustText
import PortMate.Transducer

namespace PortMate

def tftpOpcodeData : UInt16 := 3
def tftpOpcodeAck : UInt16 := 4
def tftpOpcodeError : UInt16 := 5
def tftpOpcodeOack : UInt16 := 6
def tftpDefaultBlockSize : Nat := 512
def tftpMaxBlockSize : Nat := 1468
def tftpAckBufferSize : Nat := 4 + tftpMaxBlockSize + 512

def tftpRetryTimeout : Nat := 5

structure TftpNegotiation where
  blockSize : Nat
  retryTimeout : Nat
  optionAck : Option (List UInt8)

/-- The variables of the loop over the requested options. -/
structure TftpAccepted where
  blockSize : Nat
  retryTimeout : Nat
  accepted : List (String × String)

def acceptTftpOption (total : Nat) (soFar : TftpAccepted) (option : String × String) :
    Except String TftpAccepted :=
  let (name, value) := option
  if name = "blksize" then
    match parseUsize value.toList with
    | none => .error "TFTP blksize 选项不是整数"
    | some requested =>
      if requested < 8 then .error "TFTP blksize 不能小于 8"
      else
        let blockSize := min requested tftpMaxBlockSize
        .ok { soFar with blockSize, accepted := soFar.accepted ++ [(name, toString blockSize)] }
  else if name = "tsize" && value = "0" then
    .ok { soFar with accepted := soFar.accepted ++ [(name, toString total)] }
  else if name = "timeout" then
    match parseUsize value.toList with
    | none => .error "TFTP timeout 选项不是整数"
    | some requested =>
      if requested = 0 || 255 < requested then .error "TFTP timeout 选项必须介于 1 和 255 之间"
      else
        .ok { soFar with
          retryTimeout := requested
          accepted := soFar.accepted ++ [(name, toString requested)] }
  else .ok soFar

def tftpOptionAck (accepted : List (String × String)) : List UInt8 :=
  u16ToBeBytes tftpOpcodeOack ++
    accepted.flatMap fun (name, value) => utf8Bytes name ++ [0] ++ utf8Bytes value ++ [0]

def negotiateTftpOptions (requested : List (String × String)) (total : Nat) :
    Except String TftpNegotiation := do
  let negotiated ← requested.foldlM (acceptTftpOption total)
    ⟨tftpDefaultBlockSize, tftpRetryTimeout, []⟩
  return {
    blockSize := negotiated.blockSize
    retryTimeout := negotiated.retryTimeout
    optionAck :=
      if negotiated.accepted.isEmpty then none else some (tftpOptionAck negotiated.accepted) }

def tftpDataPacket (block : UInt16) (data : List UInt8) : List UInt8 :=
  u16ToBeBytes tftpOpcodeData ++ u16ToBeBytes block ++ data

def tftpAckPacket (block : UInt16) : List UInt8 :=
  u16ToBeBytes tftpOpcodeAck ++ u16ToBeBytes block

/-- What waits for its acknowledgement: the option packet, or a block with the bytes before it. -/
inductive TftpStage
  | optionAck (packet : List UInt8)
  | data (bytesDone : Nat) (data : List UInt8)

def TftpStage.packet (block : UInt16) : TftpStage → List UInt8
  | .optionAck options => options
  | .data _ bytes => tftpDataPacket block bytes

inductive TftpServer
  | sending (stage : TftpStage) (block : UInt16) (attempts : Nat)
  | returned (result : Except String Nat)

/-- A packet with the answers of the progress update and of the next read, should it acknowledge
the block; the end of an attempt before and at the deadline; a task that is cancelled, a runtime
that changed, a socket that fails. -/
inductive TftpEvent
  | response (fromPeer : Bool) (bytes : List UInt8) (progress read : Except String Unit)
  | attemptOver
  | deadlineOver
  | interrupt (error : String)

structure TftpServe where
  source : List UInt8
  negotiation : TftpNegotiation

namespace TftpServe

variable (serve : TftpServe)

def readBlock (bytesDone : Nat) : List UInt8 :=
  (serve.source.drop bytesDone).take
    (min (serve.source.length - bytesDone) serve.negotiation.blockSize)

def send (stage : TftpStage) (block : UInt16) : TftpServer × List (List UInt8) :=
  (.sending stage block 1, [stage.packet block])

def sendBlock (block : UInt16) (bytesDone : Nat) (read : Except String Unit) :
    TftpServer × List (List UInt8) :=
  match read with
  | .error error => (.returned (.error s!"读取 TFTP 本地传输源失败: {error}"), [])
  | .ok () => send (.data bytesDone (serve.readBlock bytesDone)) block

def start (read : Except String Unit) : TftpServer × List (List UInt8) :=
  match serve.negotiation.optionAck with
  | some packet => send (.optionAck packet) 0
  | none => serve.sendBlock 1 0 read

def acknowledged (stage : TftpStage) (block : UInt16) (progress read : Except String Unit) :
    TftpServer × List (List UInt8) :=
  match stage with
  | .optionAck _ => serve.sendBlock 1 0 read
  | .data bytesDone data =>
    let bytesDone := min (bytesDone + data.length) (2 ^ 64 - 1)
    match progress with
    | .error error => (.returned (.error error), [])
    | .ok () =>
      if data.length < serve.negotiation.blockSize then (.returned (.ok bytesDone), [])
      else serve.sendBlock (block + 1) bytesDone read

def respond (stage : TftpStage) (block : UInt16) (attempts : Nat) (response : List UInt8)
    (progress read : Except String Unit) : TftpServer × List (List UInt8) :=
  match response with
  | opcodeHigh :: opcodeLow :: blockHigh :: blockLow :: message =>
    let opcode := u16FromBeBytes opcodeHigh opcodeLow
    let received := u16FromBeBytes blockHigh blockLow
    if opcode = tftpOpcodeAck && received = block then serve.acknowledged stage block progress read
    else if opcode = tftpOpcodeError then
      let message := String.ofList (fromUtf8Lossy (message.takeWhile (· ≠ 0)))
      (.returned (.error s!"设备返回 TFTP 错误 {received}: {message}"), [])
    else (.sending stage block attempts, [])
  | _ => (.sending stage block attempts, [])

def step : TftpServer → TftpEvent → TftpServer × List (List UInt8)
  | .returned result, _ => (.returned result, [])
  | .sending stage block attempts, .response fromPeer bytes progress read =>
    if fromPeer then serve.respond stage block attempts (bytes.take tftpAckBufferSize) progress read
    else (.sending stage block attempts, [])
  | .sending stage block attempts, .attemptOver =>
    (.sending stage block (min (attempts + 1) (2 ^ 32 - 1)), [stage.packet block])
  | .sending _ block attempts, .deadlineOver =>
    (.returned (.error s!"等待设备确认 TFTP 块 {block} 超时，已重试 {attempts} 次"), [])
  | .sending _ _ _, .interrupt error => (.returned (.error error), [])

end TftpServe

/-- A receiver keeps the blocks it has and the number of the one it wants. -/
structure TftpReceiver where
  blockSize : Nat
  expected : UInt16
  blocks : List (List UInt8)
  finished : Bool

namespace TftpReceiver

def start (blockSize : Nat) : TftpReceiver := ⟨blockSize, 1, [], false⟩

/-- The wanted block is taken and acknowledged, a short one ends the file. Any other block, and the
option packet, may be acknowledged (again) or left alone. -/
def receive (receiver : TftpReceiver) (bytes : List UInt8) (again : Bool) :
    TftpReceiver × List (List UInt8) :=
  match bytes with
  | opcodeHigh :: opcodeLow :: rest =>
    let opcode := u16FromBeBytes opcodeHigh opcodeLow
    if opcode = tftpOpcodeOack then (receiver, if again then [tftpAckPacket 0] else [])
    else if opcode = tftpOpcodeData then
      match rest with
      | blockHigh :: blockLow :: data =>
        let block := u16FromBeBytes blockHigh blockLow
        if !receiver.finished && block = receiver.expected then
          ({ receiver with
              expected := receiver.expected + 1
              blocks := receiver.blocks ++ [data]
              finished := decide (data.length < receiver.blockSize) }, [tftpAckPacket block])
        else (receiver, if again then [tftpAckPacket block] else [])
      | _ => (receiver, [])
    else (receiver, [])
  | _ => (receiver, [])

end TftpReceiver

end PortMate
