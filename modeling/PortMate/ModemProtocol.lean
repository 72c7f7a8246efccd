import Mathlib.Data.List.DropRight
import Mathlib.Logic.Function.Iterate
import PortMate.RustPrimitives
import PortMate.StopAndWait

namespace PortMate

def modemSoh : UInt8 := 0x01
def modemStx : UInt8 := 0x02
def modemEot : UInt8 := 0x04
def modemAck : UInt8 := 0x06
def modemNak : UInt8 := 0x15
def modemCan : UInt8 := 0x18
def modemCrcRequest : UInt8 := 0x43
def modemEof : UInt8 := 0x1a
def modemMaxRetries : Nat := 10
def xmodemBlockSize : Nat := 128
def ymodemBlockSize : Nat := 1024

structure ModemPacket where
  blockNo : UInt8
  data : List UInt8
  deriving DecidableEq

def modemCancelled : String := "modem transfer cancelled by remote"

def modemByteTimeout : String := "modem byte timeout"

/-- What one byte means to a party that waits for something. -/
inductive Wait (α : Type)
  | ready (value : α)
  | failed (error : String)
  | again

inductive ModemAck
  | ack
  | nak

def modemWaitForReceiver (byte : UInt8) : Wait Bool :=
  if byte = modemCrcRequest then .ready true
  else if byte = modemNak then .ready false
  else if byte = modemCan then .failed modemCancelled
  else .again

def modemWaitForCrcRequest (byte : UInt8) : Wait Unit :=
  if byte = modemCrcRequest then .ready ()
  else if byte = modemCan then .failed modemCancelled
  else .again

def modemWaitForAck (byte : UInt8) : Wait ModemAck :=
  if byte = modemAck then .ready .ack
  else if byte = modemNak then .ready .nak
  else if byte = modemCan then .failed modemCancelled
  else .again

def modemWaitForNextMarker (byte : UInt8) : Wait UInt8 :=
  if byte = modemSoh then .ready modemSoh
  else if byte = modemStx then .ready modemStx
  else if byte = modemEot then .ready modemEot
  else if byte = modemCan then .failed modemCancelled
  else .again

/-- Where a write that waits for its acknowledgement stands after one arrival. -/
inductive Attempt
  | acknowledged
  | retry (left : Nat)
  | exhausted
  | failed (error : String)
  | waiting

def Attempt.again : Nat → Attempt
  | 0 => .exhausted
  | left + 1 => .retry left

/-- One arrival in the loop that writes and waits for ACK; `left` more writes are allowed. -/
def attemptUntilAck (timeoutIsAck : Bool) (left : Nat) : Arrival UInt8 → Attempt
  | .symbol byte =>
    match modemWaitForAck byte with
    | .ready .ack => .acknowledged
    | .ready .nak => .again left
    | .failed error => .failed error
    | .again => .waiting
  | .timeout => if timeoutIsAck then .acknowledged else .again left
  | .interrupt reason => .failed reason

def modemSendPacketBytesWithRetries : Nat → Arrival UInt8 → Attempt := attemptUntilAck false

def modemFinishEot : Nat → Arrival UInt8 → Attempt := attemptUntilAck false

def modemFinishAutoRemoteXmodem : Nat → Arrival UInt8 → Attempt := attemptUntilAck true

def modemFinishAutoRemoteYmodemBatch : Nat → Arrival UInt8 → Attempt := attemptUntilAck true

/-- The bit loop of the checksum: one bit of the register. -/
def crc16Bit (crc : UInt16) : UInt16 :=
  if crc &&& 0x8000 ≠ 0 then (crc <<< 1) ^^^ 0x1021 else crc <<< 1

def crc16Byte (crc : UInt16) (byte : UInt8) : UInt16 :=
  crc16Bit^[8] (crc ^^^ (byte.toUInt16 <<< (8 : UInt16)))

def crc16Xmodem (data : List UInt8) : UInt16 := data.foldl crc16Byte 0

/-- The data field of a packet: the payload padded to the block size. -/
def modemPacketData (payload : List UInt8) (size : Nat) : List UInt8 :=
  payload.take size ++ List.replicate (size - payload.length) modemEof

def modemPacketBytes (marker blockNo : UInt8) (payload : List UInt8) (size : Nat) (crc : Bool) :
    List UInt8 :=
  let data := modemPacketData payload size
  [marker, blockNo, 255 - blockNo] ++ data ++
    if crc then u16ToBeBytes (crc16Xmodem data) else [data.foldl (· + ·) 0]

def modemBlockSize (marker : UInt8) : Nat :=
  if marker = modemStx then ymodemBlockSize else xmodemBlockSize

/-- The packet that `modem_send_packet_with_retries` writes. -/
def modemSendPacket (marker blockNo : UInt8) (payload : List UInt8) (crc : Bool) : List UInt8 :=
  modemPacketBytes marker blockNo payload (modemBlockSize marker) crc

inductive PacketRead
  | more
  | bad (error : String)
  | packet (packet : ModemPacket)

def hex4 (value : UInt16) : String :=
  String.ofList ((Nat.toDigits 16 value.toNat).leftpad 4 '0')

/-- `modem_read_packet` after the marker, with the bytes read so far. -/
def modemReadPacket (marker : UInt8) (bytes : List UInt8) : PacketRead :=
  match bytes with
  | blockNo :: inverse :: body =>
    let size := modemBlockSize marker
    if blockNo ≠ 255 - inverse then .bad "modem packet block number check failed"
    else
      match body.drop size with
      | high :: low :: _ =>
        let data := body.take size
        let receivedCrc := u16FromBeBytes high low
        let actualCrc := crc16Xmodem data
        if receivedCrc ≠ actualCrc then
          .bad s!"modem packet CRC mismatch: received={hex4 receivedCrc} actual={hex4 actualCrc}"
        else .packet ⟨blockNo, data⟩
      | _ => .more
  | _ => .more

/-- The pending local file with the counters of the receive loop. -/
structure ModemOutput where
  file : List UInt8
  trailingPadding : Nat
  bytesWritten : Nat

def ModemOutput.create : ModemOutput := ⟨[], 0, 0⟩

def appendModemDataWithoutTrailingPadding (output : ModemOutput) (data : List UInt8) :
    Except String ModemOutput := do
  let content := data.rdropWhile (· = modemEof)
  if content = [] then
    let trailingPadding ← checkedAddU64 output.trailingPadding data.length "Modem 填充字节数溢出"
    return { output with trailingPadding }
  let padded ← checkedAddU64 output.bytesWritten output.trailingPadding "Modem 写入字节数溢出"
  let bytesWritten ← checkedAddU64 padded content.length "Modem 写入字节数溢出"
  return {
    file := output.file ++ List.replicate output.trailingPadding modemEof ++ content
    trailingPadding := data.length - content.length
    bytesWritten }

def appendModemDataWithSizeLimit (output : ModemOutput) (data : List UInt8) (limit : Nat) :
    Except String ModemOutput := do
  let count := min (limit - output.bytesWritten) data.length
  if count = 0 then return output
  let bytesWritten ← checkedAddU64 output.bytesWritten count "Modem 写入字节数溢出"
  return { output with file := output.file ++ data.take count, bytesWritten }

/-- What a receiver does besides changing its own state. -/
inductive ReceiverSignal
  | sent (bytes : List UInt8)
  | accepted (packet : ModemPacket)

def ReceiverSignal.bytes : ReceiverSignal → List UInt8
  | .sent bytes => bytes
  | .accepted _ => []

end PortMate
