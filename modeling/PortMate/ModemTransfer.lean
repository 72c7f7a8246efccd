import PortMate.XmodemDuplicates
import PortMate.XmodemLink
import PortMate.YmodemReceive

namespace PortMate

open List Or Transducer YmodemSender

/-- The responses that a retransmission or a late duplicate can leave on the channel. -/
def IsModemResponse (byte : UInt8) : Prop := byte = modemAck ∨ byte = modemNak

/-- The two parties after the receiver wrote its first request. -/
def xmodemConnected (source : List UInt8) (autoRemoteReceiver : Bool) :
    Link XmodemSender XmodemReceiver UInt8 UInt8 :=
  ⟨.start source autoRemoteReceiver, .start, [], [modemCrcRequest]⟩

def XmodemRun (source : List UInt8) (autoRemoteReceiver : Bool) :
    Link XmodemSender XmodemReceiver UInt8 UInt8 → Prop :=
  Link.Run xmodemSendFile (xmodemReceiveFile.emitting ReceiverSignal.bytes) XmodemSender.Started
    IsModemResponse (xmodemConnected source autoRemoteReceiver)

def ymodemConnected (source : List UInt8) (name localDestination : String)
    (autoRemoteReceiver : Bool) : Link YmodemSender YmodemReceiver UInt8 UInt8 :=
  ⟨.start source name autoRemoteReceiver, .start localDestination, [], [modemCrcRequest]⟩

def YmodemRun (source : List UInt8) (name localDestination : String) (autoRemoteReceiver : Bool) :
    Link YmodemSender YmodemReceiver UInt8 UInt8 → Prop :=
  Link.Run ymodemSendFile (ymodemReceiveFile.emitting ReceiverSignal.bytes) YmodemSender.Started
    IsModemResponse (ymodemConnected source name localDestination autoRemoteReceiver)

theorem xmodemRun_stopped_or_reading {source : List UInt8} {autoRemoteReceiver : Bool}
    {link : Link XmodemSender XmodemReceiver UInt8 UInt8}
    (run : XmodemRun source autoRemoteReceiver link) :
    XmodemStopped source link.receiver ∨ ∃ d part, XmodemReading source d part link.receiver :=
  run.stopped_or_reading (xmodem_stuttering source) (xmodem_assembling source)
    (fun i _ => xmodemFrame_ne_nil source i) (.waiting rfl rfl rfl rfl)
    (.first rfl (.start source)) (by simp [xmodemConnected]) rfl

theorem xmodem_success {source : List UInt8} {autoRemoteReceiver : Bool}
    {link : Link XmodemSender XmodemReceiver UInt8 UInt8} {bytesWritten : Nat}
    (run : XmodemRun source autoRemoteReceiver link)
    (success : link.receiver.phase = .finished (.ok bytesWritten)) :
    link.receiver.output.file = source.rdropWhile (· = modemEof) := by
  rcases xmodemRun_stopped_or_reading run with ⟨result, phase, sound⟩ | ⟨d, part, reading⟩
  · rw [success] at phase
    cases phase
    exact (sound bytesWritten rfl).1
  · cases reading <;> simp_all

section Unnamed

variable {source : List UInt8} {name error : String}

/-- A sender whose metadata does not fit in a block waits or has given up. -/
def YmodemMute (source : List UInt8) (name : String) (e : Nat) (s : YmodemSender) : Prop :=
  e = 0 ∧ (s.phase = .waitForReceiver ∧ s.source = source ∧ s.name = name ∨
    ∃ result, s.phase = .finished result)

theorem ymodem_mute_stuttering (unnamed : ymodemMetadataBlock name source.length = .error error) :
    Stuttering ymodemSendFile (fun _ => [modemEot]) YmodemSender.Started (· = modemCrcRequest)
      (YmodemMute source name) where
  step := by
    rintro e s arrival ⟨rfl, ⟨phase, rfl, rfl⟩ | ⟨result, phase⟩⟩ asked
    · refine inl ?_
      cases arrival with
      | symbol byte =>
        obtain rfl : byte = modemCrcRequest := asked (· phase) _ rfl
        have begins : s.step (.symbol modemCrcRequest) = s.sendMetadata := by
          simp only [YmodemSender.step, phase]
          rfl
        change YmodemMute _ _ 0 (s.step _).1 ∧ (s.step _).2 = []
        rw [begins, sendMetadata, unnamed]
        exact ⟨⟨rfl, inr ⟨_, rfl⟩⟩, rfl⟩
      | timeout | interrupt =>
        simp only [ymodemSendFile, YmodemSender.step, phase]
        exact ⟨⟨rfl, inr ⟨_, rfl⟩⟩, rfl⟩
    · simp only [ymodemSendFile, YmodemSender.step, phase]
      exact inl ⟨⟨rfl, inr ⟨_, phase⟩⟩, rfl⟩
  stays _ started := ymodem_step_started _ _ started
  idle mute _ := mute.1

/-- A receiver that never got a byte, or failed. -/
def YmodemUnserved (d : Nat) (part : List UInt8) (r : YmodemReceiver) : Prop :=
  d = 0 ∧ part = [] ∧ ∃ left, r.phase = .metadataMarker left

def YmodemFailed (r : YmodemReceiver) : Prop := ∃ error, r.phase = .finished (.error error)

theorem ymodem_unserved_assembling :
    Assembling (ymodemReceiveFile.emitting ReceiverSignal.bytes) (fun _ => [modemEot])
      (· = modemCrcRequest) YmodemUnserved YmodemFailed where
  symbol := by
    rintro d i part a rest r ⟨rfl, rfl, left, phase⟩ - whole
    obtain ⟨rfl, -⟩ := List.cons.inj whole
    simp only [emitting_step, ymodemReceiveFile, YmodemReceiver.step, phase]
    exact inl ⟨_, rfl⟩
  alone := by
    rintro d part arrival r ⟨rfl, rfl, left, phase⟩ alone
    cases arrival with
    | symbol a => exact alone.elim
    | interrupt reason =>
      simp only [emitting_step, ymodemReceiveFile, YmodemReceiver.step, phase]
      exact inl ⟨_, rfl⟩
    | timeout =>
      cases left with
      | zero =>
        simp only [emitting_step, ymodemReceiveFile, YmodemReceiver.step, phase]
        exact inl ⟨_, rfl⟩
      | succ left =>
        simp only [emitting_step, ymodemReceiveFile, YmodemReceiver.step, phase]
        exact inr ⟨rfl, rfl, left, rfl⟩
  asks := by
    rintro arrival r ⟨-, -, left, phase⟩ alone b mem
    cases arrival with
    | symbol a => exact alone.elim
    | interrupt reason => simp [ymodemReceiveFile, YmodemReceiver.step, phase] at mem
    | timeout =>
      cases left with
      | zero => simp [ymodemReceiveFile, YmodemReceiver.step, phase] at mem
      | succ left =>
        simpa [ymodemReceiveFile, YmodemReceiver.step, phase, ReceiverSignal.bytes] using mem
  stopped := by
    rintro arrival r ⟨error, phase⟩
    simp only [emitting_step, ymodemReceiveFile, YmodemReceiver.step, phase]
    exact ⟨⟨error, phase⟩, rfl⟩

theorem ymodem_unnamed {localDestination : String} {autoRemoteReceiver : Bool}
    {link : Link YmodemSender YmodemReceiver UInt8 UInt8}
    (unnamed : ymodemMetadataBlock name source.length = .error error)
    (run : YmodemRun source name localDestination autoRemoteReceiver link) (bytesWritten : Nat) :
    link.receiver.phase ≠ .finished (.ok bytesWritten) := by
  rcases run.stopped_or_reading (ymodem_mute_stuttering unnamed) ymodem_unserved_assembling
    (fun _ _ => by simp) ⟨rfl, inl ⟨rfl, rfl, rfl⟩⟩ ⟨rfl, rfl, 23, rfl⟩
    (by simp [ymodemConnected]) rfl with ⟨error, phase⟩ | ⟨d, part, -, -, left, phase⟩
  · rw [phase]
    exact nofun
  · rw [phase]
    exact nofun

end Unnamed

theorem ymodem_success {source : List UInt8} {name localDestination : String}
    {autoRemoteReceiver : Bool} {link : Link YmodemSender YmodemReceiver UInt8 UInt8}
    {bytesWritten : Nat} (bound : source.length < 2 ^ 64)
    (run : YmodemRun source name localDestination autoRemoteReceiver link)
    (success : link.receiver.phase = .finished (.ok bytesWritten)) :
    link.receiver.output.file = source := by
  cases named : ymodemMetadataBlock name source.length with
  | error error => exact absurd success (ymodem_unnamed named run bytesWritten)
  | ok metadata =>
    rcases run.stopped_or_reading (ymodem_stuttering source metadata)
      (ymodem_assembling bound named) (fun i _ => ymodemFrame_ne_nil source metadata i)
      (.waiting rfl rfl named rfl rfl) (.metadataMarker rfl ⟨rfl, rfl, rfl⟩)
      (by simp [ymodemConnected]) rfl with ⟨result, phase, sound⟩ | ⟨d, part, reading⟩
    · rw [success] at phase
      cases phase
      exact sound bytesWritten rfl
    · cases reading <;> simp_all

theorem modem_transfer_end_to_end (source : List UInt8) (bound : source.length < 2 ^ 64) :
    (∀ autoRemoteReceiver link bytesWritten, XmodemRun source autoRemoteReceiver link →
      link.receiver.phase = .finished (.ok bytesWritten) →
      link.receiver.output.file = source.rdropWhile (· = modemEof)) ∧
    ∀ name localDestination autoRemoteReceiver link bytesWritten,
      YmodemRun source name localDestination autoRemoteReceiver link →
      link.receiver.phase = .finished (.ok bytesWritten) → link.receiver.output.file = source :=
  ⟨fun _ _ _ run success => xmodem_success run success,
    fun _ _ _ _ _ run success => ymodem_success bound run success⟩

def zeroSource : List UInt8 := List.replicate xmodemBlockSize 0

theorem zeroSource_read : modemNextRead zeroSource 0 xmodemBlockSize = zeroSource := by
  simp [modemNextRead, zeroSource]

theorem zeroSource_packet : modemSendPacket modemSoh 1 zeroSource true =
    (zeroBlock 1).retransmitted := by
  have marker : (zeroBlock 1).marker = modemSoh := by
    simp [ModemPacket.marker, zeroBlock, xmodemBlockSize, ymodemBlockSize]
  rw [ModemPacket.retransmitted, marker]
  rfl

theorem receives_zeroSource :
    (xmodemReceiveFile.emitting ReceiverSignal.bytes).run .start
      ((zeroBlock 1).retransmitted.map .symbol) = (afterZeroBlocks 1, [modemAck]) := by
  have start : XmodemReceiver.start = afterZeroBlocks 0 := rfl
  rw [start, emitting_run, run_retransmitted (inl (length_replicate ..))
    (listening_afterZeroBlocks 0), onPacket_zeroBlock (by decide)]
  rfl

theorem zeroSource_begins :
    xmodemSendFile.step (.start zeroSource false) (.symbol modemCrcRequest) =
      (⟨zeroSource, false, true, 1, 0, .packet 9⟩, (zeroBlock 1).retransmitted) := by
  simp only [xmodemSendFile, XmodemSender.step, XmodemSender.start, modemWaitForReceiver,
    ↓reduceIte]
  rw [XmodemSender.sendNext, if_pos (by simp [zeroSource, xmodemBlockSize]), XmodemSender.packet,
    XmodemSender.read, zeroSource_read, zeroSource_packet, modemMaxRetries]

theorem zeroSource_ends :
    xmodemSendFile.step ⟨zeroSource, false, true, 1, 0, .packet 9⟩ (.symbol modemAck) =
      (⟨zeroSource, false, true, 2, xmodemBlockSize, .eot 9⟩, [modemEot]) := by
  have acknowledged : modemSendPacketBytesWithRetries 9 (.symbol modemAck) = .acknowledged := rfl
  simp only [xmodemSendFile, XmodemSender.step, acknowledged, XmodemSender.read, zeroSource_read]
  rw [XmodemSender.sendNext, if_neg (by simp [zeroSource])]
  simp [zeroSource, modemMaxRetries]

theorem zeroSource_run : XmodemRun zeroSource false
    ⟨⟨zeroSource, false, true, 2, xmodemBlockSize, .eot 9⟩,
      { afterZeroBlocks 1 with phase := .finished (.ok xmodemBlockSize) }, [], [modemAck]⟩ := by
  have connected : XmodemRun zeroSource false
      ⟨.start zeroSource false, .start, [], [modemCrcRequest]⟩ := .start
  have begun := Link.Run.responded connected zeroSource_begins
  have taken := begun.delivered receives_zeroSource (by rw [nil_append, append_nil])
  have ended := Link.Run.responded taken zeroSource_ends
  exact ended.deliver rfl

theorem ymodem_reads_metadata (localDestination : String) (metadata : List UInt8) :
    ymodemReceiveFile.run (.start localDestination)
        ((modemSendPacket modemSoh 0 metadata true).map .symbol) =
      (YmodemReceiver.start localDestination).onMetadata
        ⟨0, modemPacketData metadata xmodemBlockSize⟩ := by
  have opened : ymodemReceiveFile.step (.start localDestination) (.symbol modemSoh) =
      ({ YmodemReceiver.start localDestination with phase := .metadataPacket modemSoh [] }, []) :=
    rfl
  rw [modemSendPacket_crc, map_cons, run_cons, opened]
  refine run_packet
    (fun bytes => { YmodemReceiver.start localDestination with
      phase := .metadataPacket modemSoh bytes })
    (YmodemReceiver.start localDestination).onMetadata (fun bytes byte more => ?_)
    (fun bytes byte packet read => ?_) [] _ (modemPacketBody_ne_nil _ _ _) rfl
  · simp only [ymodemReceiveFile, YmodemReceiver.step, more]
  · simp only [ymodemReceiveFile, YmodemReceiver.step, read]
    rfl

theorem byte_named : ∃ metadata, ymodemMetadataBlock "a" 1 = .ok metadata := by
  simp only [ymodemMetadataBlock]
  rw [if_neg (by decide), if_neg (by decide)]
  exact ⟨_, rfl⟩

/-- The receiver of a file of one byte after its metadata. -/
def byteReceiver (metadata : List UInt8) (phase : YmodemReceivePhase) : YmodemReceiver :=
  ⟨"b", metadata, some 1, 1, .create, 0, phase⟩

theorem byte_metadata_answered {metadata : List UInt8}
    (named : ymodemMetadataBlock "a" 1 = .ok metadata) :
    (ymodemReceiveFile.emitting ReceiverSignal.bytes).run (.start "b")
        ((modemSendPacket modemSoh 0 metadata true).map .symbol) =
      (byteReceiver metadata .marker, [modemAck, modemCrcRequest]) := by
  have whole : modemPacketData metadata xmodemBlockSize = metadata :=
    modemPacketData_full (ymodemMetadataBlock_ok named).1
  have name : fromUtf8Lossy (utf8Bytes "a") ≠ [] := by
    rw [ne_eq, fromUtf8Lossy_eq_nil_iff]
    decide
  have destination : ("b" : String).toList.all isRustWhitespace = false := by decide
  rw [emitting_run, ymodem_reads_metadata, whole]
  simp only [YmodemReceiver.onMetadata, parseYmodemMetadata_block named (by decide), if_neg name,
    YmodemReceiver.start, destination]
  rfl

theorem byte_packet_answered (metadata : List UInt8) :
    (ymodemReceiveFile.emitting ReceiverSignal.bytes).run (byteReceiver metadata .marker)
        ((modemSendPacket modemStx 1 [7] true).map .symbol) =
      (⟨"b", metadata, some 1, 2, ⟨[7], 0, 1⟩, ymodemBlockSize, .marker⟩, [modemAck]) := by
  have opened : ymodemReceiveFile.step (byteReceiver metadata .marker) (.symbol modemStx) =
      (byteReceiver metadata (.packet modemStx []), []) := rfl
  have length : (modemPacketData [7] (modemBlockSize modemStx)).length = ymodemBlockSize :=
    modemPacketData_length _ _
  have first : (modemPacketData [7] (modemBlockSize modemStx)).take 1 = [7] := rfl
  rw [emitting_run, modemSendPacket_crc, map_cons, run_cons, opened,
    run_packet (fun bytes => byteReceiver metadata (.packet modemStx bytes))
      (byteReceiver metadata .marker).onPacket
      (fun bytes byte more => by
        simp only [ymodemReceiveFile, YmodemReceiver.step, byteReceiver, more])
      (fun bytes byte packet read => by
        simp only [ymodemReceiveFile, YmodemReceiver.step, byteReceiver, read]
        rfl) [] _ (modemPacketBody_ne_nil _ _ _) rfl]
  generalize modemPacketData [7] (modemBlockSize modemStx) = data at length first ⊢
  simp [YmodemReceiver.onPacket, YmodemReceiver.accept, appendModemDataWithSizeLimit, byteReceiver,
    checkedAddU64, ModemOutput.create, length, first, ymodemBlockSize]
  exact ⟨rfl, rfl⟩

theorem byte_run : ∃ link, YmodemRun [7] "a" "b" false link ∧
    link.receiver.phase = .finished (.ok 1) := by
  obtain ⟨metadata, named⟩ := byte_named
  have begins : ymodemSendFile.step (.start [7] "a" false) (.symbol modemCrcRequest) =
      (⟨[7], "a", false, metadata, 1, 0, .metadata 9⟩, modemSendPacket modemSoh 0 metadata true) := by
    simp only [ymodemSendFile, YmodemSender.step, YmodemSender.start, modemWaitForReceiver,
      ↓reduceIte, sendMetadata, length_singleton, named, metadataPacket, modemMaxRetries]
  have connected : YmodemRun [7] "a" "b" false
      ⟨.start [7] "a" false, .start "b", [], [modemCrcRequest]⟩ := .start
  have begun := connected.responded begins
  have taken := begun.delivered (byte_metadata_answered named)
    (by rw [nil_append, append_nil])
  have acknowledged : YmodemRun [7] "a" "b" false ⟨⟨[7], "a", false, metadata, 1, 0, .metadataCrc⟩,
      byteReceiver metadata .marker, [], [modemCrcRequest]⟩ := Link.Run.respond taken rfl
  have sends : ymodemSendFile.step ⟨[7], "a", false, metadata, 1, 0, .metadataCrc⟩
      (.symbol modemCrcRequest) =
      (⟨[7], "a", false, metadata, 1, 0, .packet 9⟩, modemSendPacket modemStx 1 [7] true) := rfl
  have requested := Link.Run.responded acknowledged sends
  have received := requested.delivered (byte_packet_answered metadata)
    (by rw [nil_append, append_nil])
  have done : YmodemRun [7] "a" "b" false _ := Link.Run.respond received rfl
  have ended : YmodemRun [7] "a" "b" false _ := Link.Run.deliver done rfl
  exact ⟨_, ended.receiver (show Arrival.timeout.Alone from trivial), rfl⟩

theorem transfers_received_whole :
    (∃ link, XmodemRun zeroSource false link ∧
      link.receiver.phase = .finished (.ok xmodemBlockSize) ∧
      link.receiver.output.file = zeroSource.rdropWhile (· = modemEof)) ∧
    ∃ link, YmodemRun [7] "a" "b" false link ∧ link.receiver.phase = .finished (.ok 1) ∧
      link.receiver.output.file = [7] := by
  have short : zeroSource.length < 2 ^ 64 := by simp [zeroSource, xmodemBlockSize]
  obtain ⟨link, run, success⟩ := byte_run
  exact ⟨⟨_, zeroSource_run, rfl,
      (modem_transfer_end_to_end zeroSource short).1 _ _ _ zeroSource_run rfl⟩,
    link, run, success,
    (modem_transfer_end_to_end [7] (by decide)).2 _ _ _ _ _ run success⟩

end PortMate
