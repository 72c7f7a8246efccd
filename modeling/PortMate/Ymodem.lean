import PortMate.ModemPacket
import PortMate.RustText

namespace PortMate

def ymodemMetadataBlock (name : String) (total : Nat) : Except String (List UInt8) :=
  if '\x00' ∈ name.toList then .error "YModem 文件名不能包含 NUL"
  else
    let metadataText := utf8Bytes (name ++ "\x00" ++ toString total ++ " ")
    if xmodemBlockSize < metadataText.length then
      .error s!"YModem 文件名和大小元数据超过 {xmodemBlockSize} 字节，无法无损编码"
    else .ok (metadataText ++ List.replicate (xmodemBlockSize - metadataText.length) 0)

def parseYmodemMetadata (data : List UInt8) : List Char × Option Nat :=
  let name := data.takeWhile (· ≠ 0)
  let rest := data.drop (name.length + 1)
  (fromUtf8Lossy name, (firstWord (fromUtf8Lossy rest)).bind parseUsize)

inductive YmodemSendPhase
  | waitForReceiver
  | metadata (left : Nat)
  | metadataCrc
  | packet (left : Nat)
  | eot (left : Nat)
  | eotCrc
  | emptyBlock (left : Nat)
  | finished (result : Except String Nat)

/-- The variables of `ymodem_send_file` and the place where it waits. -/
structure YmodemSender where
  source : List UInt8
  name : String
  autoRemoteReceiver : Bool
  metadata : List UInt8
  blockNo : UInt8
  bytesDone : Nat
  phase : YmodemSendPhase

namespace YmodemSender

def start (source : List UInt8) (name : String) (autoRemoteReceiver : Bool) : YmodemSender where
  source := source
  name := name
  autoRemoteReceiver := autoRemoteReceiver
  metadata := []
  blockNo := 1
  bytesDone := 0
  phase := .waitForReceiver

def read (s : YmodemSender) : List UInt8 := modemNextRead s.source s.bytesDone ymodemBlockSize

def packet (s : YmodemSender) : List UInt8 := modemSendPacket modemStx s.blockNo s.read true

def metadataPacket (s : YmodemSender) : List UInt8 := modemSendPacket modemSoh 0 s.metadata true

/-- The block without a name that ends the batch. -/
def emptyPacket : List UInt8 := modemSendPacket modemSoh 0 (List.replicate xmodemBlockSize 0) true

def fail (s : YmodemSender) (error : String) : YmodemSender × List UInt8 :=
  ({ s with phase := .finished (.error error) }, [])

def retriesExhausted (blockNo : UInt8) : String :=
  s!"modem block {blockNo} was not acknowledged after {modemMaxRetries} attempts"

def sendMetadata (s : YmodemSender) : YmodemSender × List UInt8 :=
  match ymodemMetadataBlock s.name s.source.length with
  | .error error => s.fail error
  | .ok metadata =>
    ({ s with metadata, phase := .metadata (modemMaxRetries - 1) },
      { s with metadata }.metadataPacket)

/-- The head of the send loop: the next block, or EOT after the last one. -/
def sendNext (s : YmodemSender) : YmodemSender × List UInt8 :=
  if s.bytesDone < s.source.length then
    ({ s with phase := .packet (modemMaxRetries - 1) }, s.packet)
  else ({ s with phase := .eot (modemMaxRetries - 1) }, [modemEot])

def sendEmptyBlock (s : YmodemSender) : YmodemSender × List UInt8 :=
  if s.autoRemoteReceiver then ({ s with phase := .emptyBlock 2 }, emptyPacket)
  else ({ s with phase := .emptyBlock (modemMaxRetries - 1) }, emptyPacket)

/-- `modem_wait_for_crc_request`, with what follows it and the context of its errors. -/
def onCrcRequest (s : YmodemSender) (arrival : Arrival UInt8) (context : String)
    (next : YmodemSender × List UInt8) : YmodemSender × List UInt8 :=
  match arrival with
  | .symbol byte =>
    match modemWaitForCrcRequest byte with
    | .ready () => next
    | .failed error => s.fail s!"{context}: {error}"
    | .again => (s, [])
  | .timeout => s.fail s!"{context}: timed out waiting for YModem CRC request"
  | .interrupt reason => s.fail s!"{context}: {reason}"

def step (s : YmodemSender) (arrival : Arrival UInt8) : YmodemSender × List UInt8 :=
  match s.phase with
  | .waitForReceiver =>
    match arrival with
    | .symbol byte =>
      match modemWaitForReceiver byte with
      | .ready true => s.sendMetadata
      | .ready false => s.fail "YModem receiver did not request CRC mode"
      | .failed error => s.fail error
      | .again => (s, [])
    | .timeout => s.fail "modem receiver did not send NAK/C within 45s"
    | .interrupt reason => s.fail reason
  | .metadata left =>
    match modemSendPacketBytesWithRetries left arrival with
    | .acknowledged => ({ s with phase := .metadataCrc }, [])
    | .retry left => ({ s with phase := .metadata left }, s.metadataPacket)
    | .exhausted => s.fail s!"YModem metadata block failed: {retriesExhausted 0}"
    | .failed error => s.fail s!"YModem metadata block failed: {error}"
    | .waiting => (s, [])
  | .metadataCrc => s.onCrcRequest arrival "YModem metadata CRC handshake failed" s.sendNext
  | .packet left =>
    match modemSendPacketBytesWithRetries left arrival with
    | .acknowledged =>
      { s with bytesDone := s.bytesDone + s.read.length, blockNo := s.blockNo + 1 }.sendNext
    | .retry left => ({ s with phase := .packet left }, s.packet)
    | .exhausted =>
      s.fail s!"YModem data block {s.blockNo} failed: {retriesExhausted s.blockNo}"
    | .failed error => s.fail s!"YModem data block {s.blockNo} failed: {error}"
    | .waiting => (s, [])
  | .eot left =>
    match modemFinishEot left arrival with
    | .acknowledged => ({ s with phase := .eotCrc }, [])
    | .retry left => ({ s with phase := .eot left }, [modemEot])
    | .exhausted =>
      s.fail s!"YModem EOT handshake failed: remote did not ACK modem EOT after {modemMaxRetries} attempts"
    | .failed error => s.fail s!"YModem EOT handshake failed: {error}"
    | .waiting => (s, [])
  | .eotCrc => s.onCrcRequest arrival "YModem EOT CRC handshake failed" s.sendEmptyBlock
  | .emptyBlock left =>
    match (if s.autoRemoteReceiver then modemFinishAutoRemoteYmodemBatch
        else modemSendPacketBytesWithRetries) left arrival with
    | .acknowledged => ({ s with phase := .finished (.ok s.bytesDone) }, [])
    | .retry left => ({ s with phase := .emptyBlock left }, emptyPacket)
    | .exhausted =>
      if s.autoRemoteReceiver then
        s.fail "YModem final empty block failed: remote rejected final YModem empty block"
      else s.fail s!"YModem final empty block failed: {retriesExhausted 0}"
    | .failed error => s.fail s!"YModem final empty block failed: {error}"
    | .waiting => (s, [])
  | .finished _ => (s, [])

end YmodemSender

def ymodemSendFile : Transducer YmodemSender (Arrival UInt8) UInt8 := ⟨YmodemSender.step⟩

inductive YmodemReceivePhase
  | metadataMarker (left : Nat)
  | metadataPacket (marker : UInt8) (bytes : List UInt8)
  | marker
  | packet (marker : UInt8) (bytes : List UInt8)
  | finalMarker
  | finalPacket (marker : UInt8) (bytes : List UInt8)
  | finished (result : Except String Nat)

/-- The variables of `ymodem_receive_file` and the place where it waits. -/
structure YmodemReceiver where
  localDestination : String
  metadata : List UInt8
  expectedSize : Option Nat
  expected : UInt8
  output : ModemOutput
  bytesReceived : Nat
  phase : YmodemReceivePhase

namespace YmodemReceiver

/-- The receiver after it wrote its first request. -/
def start (localDestination : String) : YmodemReceiver where
  localDestination := localDestination
  metadata := []
  expectedSize := none
  expected := 1
  output := .create
  bytesReceived := 0
  phase := .metadataMarker 23

def fail (r : YmodemReceiver) (error : String) : YmodemReceiver :=
  { r with phase := .finished (.error error) }

/-- The size check after EOT and the end of the file. -/
def conclude (r : YmodemReceiver) : YmodemReceiver :=
  match r.expectedSize with
  | some expectedSize =>
    if r.output.bytesWritten ≠ expectedSize then
      r.fail s!"YModem file size mismatch: received {r.output.bytesWritten}, expected {expectedSize}"
    else { r with phase := .finished (.ok r.output.bytesWritten) }
  | none => { r with phase := .finished (.ok r.output.bytesWritten) }

def onMetadata (r : YmodemReceiver) (packet : ModemPacket) :
    YmodemReceiver × List ReceiverSignal :=
  if packet.blockNo ≠ 0 then (r.fail "YModem metadata block missing", [])
  else
    let (name, expectedSize) := parseYmodemMetadata packet.data
    if name = [] then (r.fail "YModem sender sent empty batch", [.sent [modemAck]])
    else if r.localDestination.toList.all isRustWhitespace then
      (r.fail "YModem 本地目标路径不能为空", [.sent [modemAck, modemCrcRequest]])
    else
      ({ r with metadata := packet.data, expectedSize, phase := .marker },
        [.sent [modemAck, modemCrcRequest]])

def accept (r : YmodemReceiver) (packet : ModemPacket) : Except String YmodemReceiver := do
  let output ← match r.expectedSize with
    | some expectedSize => appendModemDataWithSizeLimit r.output packet.data expectedSize
    | none => appendModemDataWithoutTrailingPadding r.output packet.data
  let bytesReceived ← checkedAddU64 r.bytesReceived packet.data.length "YModem 接收字节数溢出"
  return { r with expected := r.expected + 1, output, bytesReceived, phase := .marker }

def onPacket (r : YmodemReceiver) (packet : ModemPacket) : YmodemReceiver × List ReceiverSignal :=
  if packet.blockNo = r.expected then
    match r.accept packet with
    | .ok r => (r, [.accepted packet, .sent [modemAck]])
    | .error error => (r.fail error, [])
  else if r.bytesReceived = 0 ∧ packet.blockNo = 0 ∧ packet.data = r.metadata then
    ({ r with phase := .marker }, [.sent [modemAck, modemCrcRequest]])
  else if 0 < r.bytesReceived ∧ packet.blockNo = r.expected - 1 then
    ({ r with phase := .marker }, [.sent [modemAck]])
  else
    (r.fail s!"YModem 收到失序数据块 {packet.blockNo}，预期 {r.expected}", [.sent [modemNak]])

def step (r : YmodemReceiver) (arrival : Arrival UInt8) : YmodemReceiver × List ReceiverSignal :=
  match r.phase, arrival with
  | .finished _, _ => (r, [])
  -- Whatever ends the wait for the block after EOT, the file is complete.
  | .finalMarker, .interrupt _ => (r.conclude, [])
  | _, .interrupt reason => (r.fail reason, [])
  | .metadataMarker _, .symbol byte =>
    match modemWaitForNextMarker byte with
    | .ready marker =>
      if marker = modemEot then (r.fail "YModem sender ended before metadata block", [])
      else ({ r with phase := .metadataPacket marker [] }, [])
    | .failed error => (r.fail error, [])
    | .again => (r, [])
  | .metadataMarker 0, .timeout => (r.fail "timed out waiting for modem packet", [])
  | .metadataMarker (left + 1), .timeout =>
    ({ r with phase := .metadataMarker left }, [.sent [modemCrcRequest]])
  | .metadataPacket marker bytes, .symbol byte =>
    match modemReadPacket marker (bytes ++ [byte]) with
    | .more => ({ r with phase := .metadataPacket marker (bytes ++ [byte]) }, [])
    | .bad error => (r.fail error, [])
    | .packet packet => r.onMetadata packet
  | .metadataPacket _ _, .timeout => (r.fail modemByteTimeout, [])
  | .marker, .symbol byte =>
    match modemWaitForNextMarker byte with
    | .ready marker =>
      if marker = modemEot then
        ({ r with phase := .finalMarker }, [.sent [modemAck, modemCrcRequest]])
      else ({ r with phase := .packet marker [] }, [])
    | .failed error => (r.fail error, [])
    | .again => (r, [])
  | .marker, .timeout => (r.fail modemByteTimeout, [])
  | .packet marker bytes, .symbol byte =>
    match modemReadPacket marker (bytes ++ [byte]) with
    | .more => ({ r with phase := .packet marker (bytes ++ [byte]) }, [])
    | .bad error => (r.fail error, [])
    | .packet packet => r.onPacket packet
  | .packet _ _, .timeout => (r.fail modemByteTimeout, [])
  | .finalMarker, .symbol byte =>
    match modemWaitForNextMarker byte with
    | .ready marker =>
      if marker = modemEot then (r.conclude, [])
      else ({ r with phase := .finalPacket marker [] }, [])
    | .failed _ => (r.conclude, [])
    | .again => (r, [])
  | .finalMarker, .timeout => (r.conclude, [])
  | .finalPacket marker bytes, .symbol byte =>
    match modemReadPacket marker (bytes ++ [byte]) with
    | .more => ({ r with phase := .finalPacket marker (bytes ++ [byte]) }, [])
    | .bad error => (r.fail error, [])
    | .packet packet =>
      (r.conclude, if packet.blockNo = 0 then [.sent [modemAck]] else [])
  | .finalPacket _ _, .timeout => (r.fail modemByteTimeout, [])

end YmodemReceiver

def ymodemReceiveFile : Transducer YmodemReceiver (Arrival UInt8) ReceiverSignal :=
  ⟨YmodemReceiver.step⟩

end PortMate
