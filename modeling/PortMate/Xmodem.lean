import PortMate.ModemPacket

namespace PortMate

inductive XmodemSendPhase
  | waitForReceiver
  | packet (left : Nat)
  | eot (left : Nat)
  | finished (result : Except String Nat)

/-- The variables of `xmodem_send_file` and the place where it waits. -/
structure XmodemSender where
  source : List UInt8
  autoRemoteReceiver : Bool
  crc : Bool
  blockNo : UInt8
  bytesDone : Nat
  phase : XmodemSendPhase

namespace XmodemSender

def start (source : List UInt8) (autoRemoteReceiver : Bool) : XmodemSender where
  source := source
  autoRemoteReceiver := autoRemoteReceiver
  crc := false
  blockNo := 1
  bytesDone := 0
  phase := .waitForReceiver

def read (s : XmodemSender) : List UInt8 := modemNextRead s.source s.bytesDone xmodemBlockSize

def packet (s : XmodemSender) : List UInt8 := modemSendPacket modemSoh s.blockNo s.read s.crc

def fail (s : XmodemSender) (error : String) : XmodemSender × List UInt8 :=
  ({ s with phase := .finished (.error error) }, [])

/-- The head of the send loop: the next block, or EOT after the last one. -/
def sendNext (s : XmodemSender) : XmodemSender × List UInt8 :=
  if s.bytesDone < s.source.length then
    ({ s with phase := .packet (modemMaxRetries - 1) }, s.packet)
  else if s.autoRemoteReceiver then ({ s with phase := .eot 2 }, [modemEot])
  else ({ s with phase := .eot (modemMaxRetries - 1) }, [modemEot])

def blockFailed (s : XmodemSender) (error : String) : XmodemSender × List UInt8 :=
  s.fail s!"XModem data block {s.blockNo} failed: {error}"

def eotFailed (s : XmodemSender) (error : String) : XmodemSender × List UInt8 :=
  s.fail s!"XModem EOT handshake failed: {error}"

def step (s : XmodemSender) (arrival : Arrival UInt8) : XmodemSender × List UInt8 :=
  match s.phase with
  | .waitForReceiver =>
    match arrival with
    | .symbol byte =>
      match modemWaitForReceiver byte with
      | .ready crc => { s with crc }.sendNext
      | .failed error => s.fail error
      | .again => (s, [])
    | .timeout => s.fail "modem receiver did not send NAK/C within 45s"
    | .interrupt reason => s.fail reason
  | .packet left =>
    match modemSendPacketBytesWithRetries left arrival with
    | .acknowledged =>
      { s with bytesDone := s.bytesDone + s.read.length, blockNo := s.blockNo + 1 }.sendNext
    | .retry left => ({ s with phase := .packet left }, s.packet)
    | .exhausted =>
      s.blockFailed
        s!"modem block {s.blockNo} was not acknowledged after {modemMaxRetries} attempts"
    | .failed error => s.blockFailed error
    | .waiting => (s, [])
  | .eot left =>
    -- With a remote receiver that PortMate started, silence after EOT is success.
    match (if s.autoRemoteReceiver then modemFinishAutoRemoteXmodem else modemFinishEot) left
        arrival with
    | .acknowledged => ({ s with phase := .finished (.ok s.bytesDone) }, [])
    | .retry left => ({ s with phase := .eot left }, [modemEot])
    | .exhausted =>
      if s.autoRemoteReceiver then s.eotFailed "remote did not ACK modem EOT"
      else s.eotFailed s!"remote did not ACK modem EOT after {modemMaxRetries} attempts"
    | .failed error => s.eotFailed error
    | .waiting => (s, [])
  | .finished _ => (s, [])

end XmodemSender

def xmodemSendFile : Transducer XmodemSender (Arrival UInt8) UInt8 := ⟨XmodemSender.step⟩

inductive XmodemReceivePhase
  | firstMarker (left : Nat)
  | marker
  | packet (marker : UInt8) (bytes : List UInt8)
  | finished (result : Except String Nat)

/-- The variables of `xmodem_receive_file` and the place where it waits. -/
structure XmodemReceiver where
  expected : UInt8
  output : ModemOutput
  bytesReceived : Nat
  phase : XmodemReceivePhase

namespace XmodemReceiver

/-- The receiver after it wrote its first request. -/
def start : XmodemReceiver where
  expected := 1
  output := .create
  bytesReceived := 0
  phase := .firstMarker 23

def fail (r : XmodemReceiver) (error : String) : XmodemReceiver :=
  { r with phase := .finished (.error error) }

def onMarker (r : XmodemReceiver) (byte : UInt8) : XmodemReceiver × List ReceiverSignal :=
  match modemWaitForNextMarker byte with
  | .ready marker =>
    if marker = modemEot then
      ({ r with phase := .finished (.ok r.output.bytesWritten) }, [.sent [modemAck]])
    else ({ r with phase := .packet marker [] }, [])
  | .failed error => (r.fail error, [])
  | .again => (r, [])

def accept (r : XmodemReceiver) (packet : ModemPacket) : Except String XmodemReceiver := do
  let output ← appendModemDataWithoutTrailingPadding r.output packet.data
  let bytesReceived ← checkedAddU64 r.bytesReceived packet.data.length "XModem 接收字节数溢出"
  return { expected := r.expected + 1, output, bytesReceived, phase := .marker }

def onPacket (r : XmodemReceiver) (packet : ModemPacket) : XmodemReceiver × List ReceiverSignal :=
  if packet.blockNo = r.expected then
    match r.accept packet with
    | .ok r => (r, [.accepted packet, .sent [modemAck]])
    | .error error => (r.fail error, [])
  else if r.expected ≠ 1 ∧ packet.blockNo = r.expected - 1 then
    ({ r with phase := .marker }, [.sent [modemAck]])
  else
    (r.fail s!"XModem 收到失序数据块 {packet.blockNo}，预期 {r.expected}", [.sent [modemNak]])

def step (r : XmodemReceiver) (arrival : Arrival UInt8) : XmodemReceiver × List ReceiverSignal :=
  match r.phase, arrival with
  | .finished _, _ => (r, [])
  | _, .interrupt reason => (r.fail reason, [])
  | .firstMarker _, .symbol byte => r.onMarker byte
  | .firstMarker 0, .timeout => (r.fail "timed out waiting for modem packet", [])
  | .firstMarker (left + 1), .timeout =>
    ({ r with phase := .firstMarker left }, [.sent [modemCrcRequest]])
  | .marker, .symbol byte => r.onMarker byte
  | .marker, .timeout => (r.fail modemByteTimeout, [])
  | .packet marker bytes, .symbol byte =>
    match modemReadPacket marker (bytes ++ [byte]) with
    | .more => ({ r with phase := .packet marker (bytes ++ [byte]) }, [])
    | .bad error => (r.fail error, [.sent [modemNak]])
    | .packet packet => r.onPacket packet
  | .packet _ _, .timeout => (r.fail modemByteTimeout, [.sent [modemNak]])

end XmodemReceiver

def xmodemReceiveFile : Transducer XmodemReceiver (Arrival UInt8) ReceiverSignal :=
  ⟨XmodemReceiver.step⟩

end PortMate
