import PortMate.YmodemMetadata

namespace PortMate

open Or UInt8

/-- The packet that the sender writes as its `i`-th frame: metadata, the blocks, no packet
but EOT, and the empty block. -/
def ymodemPacketOf (source metadata : List UInt8) : Nat → Option (UInt8 × UInt8 × List UInt8)
  | 0 => some (modemSoh, 0, metadata)
  | 1 => some (modemSoh, 0, metadata)
  | k + 2 =>
    if k * ymodemBlockSize < source.length then
      some (modemStx, ofNat (k + 1),
        modemNextRead source (k * ymodemBlockSize) ymodemBlockSize)
    else if k = 0 ∨ (k - 1) * ymodemBlockSize < source.length then none
    else some (modemSoh, 0, List.replicate xmodemBlockSize 0)

def ymodemFrame (source metadata : List UInt8) (i : Nat) : List UInt8 :=
  match ymodemPacketOf source metadata i with
  | some (marker, blockNo, payload) => modemSendPacket marker blockNo payload true
  | none => [modemEot]

theorem ymodemFrame_ne_nil (source metadata : List UInt8) (i : Nat) :
    ymodemFrame source metadata i ≠ [] := by
  unfold ymodemFrame
  split
  · simp [modemSendPacket_crc]
  · simp

/-- The sender that has begun `e` frames. -/
inductive YmodemSending (source metadata : List UInt8) : Nat → YmodemSender → Prop
  | waiting {s : YmodemSender} (phase : s.phase = .waitForReceiver) (same : s.source = source)
      (named : ymodemMetadataBlock s.name source.length = .ok metadata) (bytesDone : s.bytesDone = 0)
      (blockNo : s.blockNo = 1) : YmodemSending source metadata 0 s
  | metadata {s : YmodemSender} {left : Nat} (phase : s.phase = .metadata left)
      (same : s.source = source) (block : s.metadata = metadata) (bytesDone : s.bytesDone = 0)
      (blockNo : s.blockNo = 1) : YmodemSending source metadata 1 s
  | metadataCrc {s : YmodemSender} (phase : s.phase = .metadataCrc) (same : s.source = source)
      (bytesDone : s.bytesDone = 0) (blockNo : s.blockNo = 1) : YmodemSending source metadata 1 s
  | packet {s : YmodemSender} {k left : Nat} (phase : s.phase = .packet left)
      (same : s.source = source) (bytesDone : s.bytesDone = k * ymodemBlockSize)
      (more : k * ymodemBlockSize < source.length) (blockNo : s.blockNo = ofNat (k + 1)) :
      YmodemSending source metadata (k + 2) s
  | eot {s : YmodemSender} {k left : Nat} (phase : s.phase = .eot left)
      (whole : source.length ≤ k * ymodemBlockSize)
      (last : k = 0 ∨ (k - 1) * ymodemBlockSize < source.length) :
      YmodemSending source metadata (k + 2) s
  | eotCrc {s : YmodemSender} {k : Nat} (phase : s.phase = .eotCrc)
      (whole : source.length ≤ k * ymodemBlockSize) : YmodemSending source metadata (k + 2) s
  | emptyBlock {s : YmodemSender} {k left : Nat} (phase : s.phase = .emptyBlock left)
      (whole : source.length ≤ k * ymodemBlockSize) : YmodemSending source metadata (k + 3) s
  | finished {s : YmodemSender} {e : Nat} {result : Except String Nat}
      (phase : s.phase = .finished result) : YmodemSending source metadata e s

def YmodemSender.Started (s : YmodemSender) : Prop := s.phase ≠ .waitForReceiver

section Sender

variable {source metadata : List UInt8}

theorem ymodemFrame_packet {k : Nat} (more : k * ymodemBlockSize < source.length) :
    ymodemFrame source metadata (k + 2) = modemSendPacket modemStx (ofNat (k + 1))
      (modemNextRead source (k * ymodemBlockSize) ymodemBlockSize) true := by
  simp [ymodemFrame, ymodemPacketOf, more]

theorem ymodemFrame_eot {k : Nat} (whole : source.length ≤ k * ymodemBlockSize)
    (last : k = 0 ∨ (k - 1) * ymodemBlockSize < source.length) :
    ymodemFrame source metadata (k + 2) = [modemEot] := by
  simp [ymodemFrame, ymodemPacketOf, Nat.not_lt.mpr whole, last]

theorem ymodemFrame_empty {k : Nat} (whole : source.length ≤ k * ymodemBlockSize) :
    ymodemFrame source metadata (k + 3) = YmodemSender.emptyPacket := by
  have more : source.length ≤ (k + 1) * ymodemBlockSize := by
    rw [Nat.succ_mul]
    omega
  simp [ymodemFrame, ymodemPacketOf, Nat.not_lt.mpr whole, Nat.not_lt.mpr more,
    YmodemSender.emptyPacket]

theorem ymodem_failed {s : YmodemSender} {e : Nat} (error : String) :
    WritesFrame (ymodemFrame source metadata) (YmodemSending source metadata) e (s.fail error) :=
  inl ⟨.finished rfl, rfl⟩

theorem ymodem_sendNext_writes {s : YmodemSender} {k : Nat} (same : s.source = source)
    (bytesDone : s.bytesDone = min (k * ymodemBlockSize) source.length)
    (blockNo : s.blockNo = ofNat (k + 1))
    (begun : k = 0 ∨ (k - 1) * ymodemBlockSize < source.length) :
    WritesFrame (ymodemFrame source metadata) (YmodemSending source metadata) (k + 1)
      s.sendNext := by
  subst same
  refine inr (inr ?_)
  unfold YmodemSender.sendNext
  split_ifs with more
  · have at_k : s.bytesDone = k * ymodemBlockSize := by omega
    have room : k * ymodemBlockSize < s.source.length := by omega
    exact ⟨.packet rfl rfl at_k room blockNo, by
      rw [ymodemFrame_packet room, YmodemSender.packet, YmodemSender.read, at_k, blockNo]⟩
  · have whole : s.source.length ≤ k * ymodemBlockSize := by omega
    exact ⟨.eot rfl whole begun, (ymodemFrame_eot whole begun).symm⟩

theorem onCrcRequest_writes {s : YmodemSender} {e : Nat} {next : YmodemSender × List UInt8}
    (arrival : Arrival UInt8) (context : String)
    (stays : YmodemSending source metadata e s)
    (writes : WritesFrame (ymodemFrame source metadata) (YmodemSending source metadata) e next) :
    WritesFrame (ymodemFrame source metadata) (YmodemSending source metadata) e
      (s.onCrcRequest arrival context next) := by
  unfold YmodemSender.onCrcRequest
  split
  · split
    · exact writes
    · exact ymodem_failed _
    · exact inl ⟨stays, rfl⟩
  · exact ymodem_failed _
  · exact ymodem_failed _

theorem ymodem_step_writes {s : YmodemSender} {e : Nat} {arrival : Arrival UInt8}
    (sending : YmodemSending source metadata e s)
    (asked : ¬s.Started → ∀ b, arrival = .symbol b → b = modemCrcRequest) :
    WritesFrame (ymodemFrame source metadata) (YmodemSending source metadata) e
      (s.step arrival) := by
  cases sending with
  | waiting phase same named bytesDone blockNo =>
    cases arrival with
    | symbol byte =>
      obtain rfl : byte = modemCrcRequest := asked (· phase) _ rfl
      have begins : s.step (.symbol modemCrcRequest) = s.sendMetadata := by
        simp only [YmodemSender.step, phase]
        rfl
      subst same
      rw [begins, YmodemSender.sendMetadata, named]
      exact inr (inr ⟨.metadata rfl rfl rfl bytesDone blockNo, rfl⟩)
    | timeout =>
      simp only [YmodemSender.step, phase]
      exact ymodem_failed _
    | interrupt reason =>
      simp only [YmodemSender.step, phase]
      exact ymodem_failed _
  | metadata phase same block bytesDone blockNo =>
    simp only [YmodemSender.step, phase]
    split
    · exact inl ⟨.metadataCrc rfl same bytesDone blockNo, rfl⟩
    · refine inr (inl ⟨Nat.le_refl 1, .metadata rfl same block bytesDone blockNo, ?_⟩)
      rw [YmodemSender.metadataPacket, block]
      rfl
    · exact ymodem_failed _
    · exact ymodem_failed _
    · exact inl ⟨.metadata phase same block bytesDone blockNo, rfl⟩
  | metadataCrc phase same bytesDone blockNo =>
    simp only [YmodemSender.step, phase]
    refine onCrcRequest_writes _ _ (.metadataCrc phase same bytesDone blockNo) ?_
    exact ymodem_sendNext_writes same (by simp [bytesDone]) blockNo (inl rfl)
  | @packet _ k _ phase same bytesDone more blockNo =>
    subst same
    simp only [YmodemSender.step, phase]
    split
    · refine ymodem_sendNext_writes rfl ?_ ?_ (inr more)
      · simp only [YmodemSender.read, modemNextRead, List.length_take, List.length_drop, bytesDone]
        rw [Nat.succ_mul]
        omega
      · simp only [blockNo]
        rw [ofNat_add (k + 1) 1]
        rfl
    · refine inr (inl ⟨Nat.succ_pos _, .packet rfl rfl bytesDone more blockNo, ?_⟩)
      rw [ymodemFrame_packet more, YmodemSender.packet, YmodemSender.read, bytesDone, blockNo]
    · exact ymodem_failed _
    · exact ymodem_failed _
    · exact inl ⟨.packet phase rfl bytesDone more blockNo, rfl⟩
  | eot phase whole last =>
    simp only [YmodemSender.step, phase]
    split
    · exact inl ⟨.eotCrc rfl whole, rfl⟩
    · exact inr (inl ⟨Nat.succ_pos _, .eot rfl whole last, (ymodemFrame_eot whole last).symm⟩)
    · exact ymodem_failed _
    · exact ymodem_failed _
    · exact inl ⟨.eot phase whole last, rfl⟩
  | eotCrc phase whole =>
    simp only [YmodemSender.step, phase]
    refine onCrcRequest_writes _ _ (.eotCrc phase whole) (inr (inr ?_))
    unfold YmodemSender.sendEmptyBlock
    split_ifs <;> exact ⟨.emptyBlock rfl whole, (ymodemFrame_empty whole).symm⟩
  | emptyBlock phase whole =>
    simp only [YmodemSender.step, phase]
    split
    · exact inl ⟨.finished rfl, rfl⟩
    · exact inr (inl ⟨Nat.succ_pos _, .emptyBlock rfl whole, (ymodemFrame_empty whole).symm⟩)
    · split_ifs <;> exact ymodem_failed _
    · exact ymodem_failed _
    · exact inl ⟨.emptyBlock phase whole, rfl⟩
  | finished phase =>
    simp only [YmodemSender.step, phase]
    exact inl ⟨.finished phase, rfl⟩

theorem ymodem_sendNext_started (s : YmodemSender) : s.sendNext.1.Started := by
  unfold YmodemSender.sendNext
  split_ifs <;> exact nofun

theorem onCrcRequest_started {s : YmodemSender} {next : YmodemSender × List UInt8}
    (arrival : Arrival UInt8) (context : String) (started : s.Started)
    (continues : next.1.Started) : (s.onCrcRequest arrival context next).1.Started := by
  unfold YmodemSender.onCrcRequest
  split
  · split
    · exact continues
    · exact nofun
    · exact started
  · exact nofun
  · exact nofun

theorem ymodem_step_started (s : YmodemSender) (arrival : Arrival UInt8) (started : s.Started) :
    (s.step arrival).1.Started := by
  unfold YmodemSender.step
  split
  next phase => exact absurd phase started
  next =>
    split
    · exact nofun
    · exact nofun
    · exact nofun
    · exact nofun
    · exact started
  next => exact onCrcRequest_started _ _ started (ymodem_sendNext_started s)
  next =>
    split
    · exact ymodem_sendNext_started _
    · exact nofun
    · exact nofun
    · exact nofun
    · exact started
  next =>
    split
    · exact nofun
    · exact nofun
    · exact nofun
    · exact nofun
    · exact started
  next =>
    refine onCrcRequest_started _ _ started ?_
    unfold YmodemSender.sendEmptyBlock
    split_ifs <;> exact nofun
  next =>
    split
    · exact nofun
    · exact nofun
    · split_ifs <;> exact nofun
    · exact nofun
    · exact started
  next => exact started

theorem ymodem_idle {s : YmodemSender} {e : Nat} (sending : YmodemSending source metadata e s)
    (idle : ¬s.Started) : e = 0 := by
  have phase : s.phase = .waitForReceiver := not_not.mp idle
  cases sending <;> simp_all

theorem ymodem_stuttering (source metadata : List UInt8) :
    Stuttering ymodemSendFile (ymodemFrame source metadata) YmodemSender.Started
      (· = modemCrcRequest) (YmodemSending source metadata) where
  step := ymodem_step_writes
  stays _ started := ymodem_step_started _ _ started
  idle := ymodem_idle

end Sender

end PortMate
