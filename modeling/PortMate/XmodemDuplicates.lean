import PortMate.Xmodem

namespace PortMate

open List Or UInt8 XmodemReceiver

def acceptedPackets (signals : List ReceiverSignal) : List ModemPacket :=
  signals.filterMap fun
    | .accepted packet => some packet
    | .sent _ => none

@[simp] theorem acceptedPackets_append (xs ys : List ReceiverSignal) :
    acceptedPackets (xs ++ ys) = acceptedPackets xs ++ acceptedPackets ys :=
  filterMap_append

/-- A receiver between two packets, with the blocks that it has accepted. -/
structure XmodemTransfer (r : XmodemReceiver) (blocks : List ModemPacket) : Prop where
  reached : ∃ arrivals signals, xmodemReceiveFile.run .start arrivals = (r, signals) ∧
    acceptedPackets signals = blocks
  between : r.phase = .marker

/-- The marker of the packets whose data field has this packet's size. -/
def ModemPacket.marker (packet : ModemPacket) : UInt8 :=
  if packet.data.length = ymodemBlockSize then modemStx else modemSoh

def ModemPacket.retransmitted (packet : ModemPacket) : List UInt8 :=
  modemSendPacket packet.marker packet.blockNo packet.data true

/-- The receiver acknowledges block `n` once more and changes nothing else. -/
def ToleratesDuplicate (r : XmodemReceiver) (n : Nat) (last : ModemPacket) : Prop :=
  xmodemReceiveFile.run r (last.retransmitted.map .symbol) = (r, [.sent [modemAck]]) ∧
    r.expected = ofNat (n + 1)

def ModemPacket.Sized (packet : ModemPacket) : Prop :=
  packet.data.length = xmodemBlockSize ∨ packet.data.length = ymodemBlockSize

theorem ModemPacket.Sized.marker_size {packet : ModemPacket} (sized : packet.Sized) :
    modemBlockSize packet.marker = packet.data.length := by
  unfold ModemPacket.marker
  rcases sized with size | size
  · rw [size]
    rfl
  · rw [if_pos size, size]
    rfl

theorem modemReadPacket_sized {marker : UInt8} {bytes : List UInt8} {packet : ModemPacket}
    (h : modemReadPacket marker bytes = .packet packet) : packet.Sized := by
  unfold modemReadPacket at h
  split at h
  next blockNo inverse body =>
    simp only at h
    split_ifs at h with inverted
    split at h
    next high low rest checksum =>
      split_ifs at h with differs
      cases h
      have long := congrArg List.length checksum
      simp only [length_drop, length_cons] at long
      have size : (body.take (modemBlockSize marker)).length = modemBlockSize marker := by
        rw [length_take]
        omega
      have sizes : modemBlockSize marker = xmodemBlockSize ∨
          modemBlockSize marker = ymodemBlockSize := by
        unfold modemBlockSize
        split_ifs
        · exact inr rfl
        · exact inl rfl
      exact sizes.imp size.trans size.trans
    next => simp at h
  next => simp at h

theorem accept_expected {r next : XmodemReceiver} {packet : ModemPacket}
    (h : r.accept packet = .ok next) : next.expected = r.expected + 1 := by
  obtain ⟨output, -, h⟩ := except_bind_eq_ok h
  obtain ⟨bytesReceived, -, h⟩ := except_bind_eq_ok h
  cases h
  rfl

/-- The number of the expected block moves exactly when a block is accepted. -/
def Advances (r : XmodemReceiver) (next : XmodemReceiver × List ReceiverSignal) : Prop :=
  next.1.expected = r.expected ∧ acceptedPackets next.2 = [] ∨
    ∃ packet : ModemPacket, packet.Sized ∧ packet.blockNo = r.expected ∧
      next.1.expected = r.expected + 1 ∧ acceptedPackets next.2 = [packet]

variable (r : XmodemReceiver)

theorem onMarker_advances (byte : UInt8) : Advances r (r.onMarker byte) := by
  refine inl ?_
  unfold onMarker
  split
  · split_ifs <;> exact ⟨rfl, rfl⟩
  · exact ⟨rfl, rfl⟩
  · exact ⟨rfl, rfl⟩

theorem onPacket_advances {packet : ModemPacket} (sized : packet.Sized) :
    Advances r (r.onPacket packet) := by
  unfold onPacket
  split_ifs with inOrder repeated
  · cases accepted : r.accept packet with
    | error error => exact inl ⟨rfl, rfl⟩
    | ok next => exact inr ⟨packet, sized, inOrder, accept_expected accepted, rfl⟩
  · exact inl ⟨rfl, rfl⟩
  · exact inl ⟨rfl, rfl⟩

theorem step_advances (arrival : Arrival UInt8) :
    Advances r (xmodemReceiveFile.step r arrival) := by
  change Advances r (r.step arrival)
  unfold XmodemReceiver.step
  split
  · exact inl ⟨rfl, rfl⟩
  · exact inl ⟨rfl, rfl⟩
  · exact onMarker_advances r _
  · exact inl ⟨rfl, rfl⟩
  · exact inl ⟨rfl, rfl⟩
  · exact onMarker_advances r _
  · exact inl ⟨rfl, rfl⟩
  · split
    next => exact inl ⟨rfl, rfl⟩
    next => exact inl ⟨rfl, rfl⟩
    next read => exact onPacket_advances r (modemReadPacket_sized read)
  · exact inl ⟨rfl, rfl⟩

/-- What a run leaves behind: the next number is one more than the blocks accepted. -/
structure XmodemCounted (r : XmodemReceiver) (signals : List ReceiverSignal) : Prop where
  expected : r.expected = ofNat ((acceptedPackets signals).length + 1)
  last : ∀ packet ∈ (acceptedPackets signals).getLast?,
    packet.Sized ∧ packet.blockNo = ofNat (acceptedPackets signals).length

theorem counted_step (signals : List ReceiverSignal) (arrival : Arrival UInt8)
    (counted : XmodemCounted r signals) :
    XmodemCounted (xmodemReceiveFile.step r arrival).1
      (signals ++ (xmodemReceiveFile.step r arrival).2) := by
  rcases step_advances r arrival with ⟨same, nothing⟩ | ⟨packet, sized, number, next, taken⟩
  · refine ⟨?_, ?_⟩
    · rw [same, acceptedPackets_append, nothing, append_nil, counted.expected]
    · simpa [nothing] using counted.last
  · refine ⟨?_, ?_⟩
    · rw [next, acceptedPackets_append, taken, length_append, counted.expected]
      simp [ofNat_add]
    · intro last isLast
      obtain rfl : packet = last := by simpa [taken] using isLast
      refine ⟨sized, ?_⟩
      rw [number, counted.expected, acceptedPackets_append, taken, length_append]
      rfl

theorem counted_run (arrivals : List (Arrival UInt8)) :
    XmodemCounted (xmodemReceiveFile.run .start arrivals).1
      (xmodemReceiveFile.run .start arrivals).2 := by
  have initial : XmodemCounted .start [] := ⟨rfl, by simp [acceptedPackets]⟩
  simpa using xmodemReceiveFile.run_preserves_trace counted_step initial arrivals

theorem onPacket_phase (phase : XmodemReceivePhase) (packet : ModemPacket) :
    { r with phase }.onPacket packet = r.onPacket packet := rfl

theorem run_packet_body (marker blockNo : UInt8) (payload : List UInt8) :
    xmodemReceiveFile.run { r with phase := .packet marker [] }
        ((modemPacketBody marker blockNo payload).map .symbol) =
      r.onPacket ⟨blockNo, modemPacketData payload (modemBlockSize marker)⟩ := by
  refine run_packet (fun bytes => { r with phase := .packet marker bytes }) r.onPacket
    (fun bytes byte more => ?_) (fun bytes byte packet read => ?_) [] _
    (modemPacketBody_ne_nil _ _ _) rfl
  · simp only [xmodemReceiveFile, XmodemReceiver.step, more]
  · simp only [xmodemReceiveFile, XmodemReceiver.step, read]
    exact onPacket_phase r _ packet

theorem waitForNextMarker_packet (packet : ModemPacket) :
    modemWaitForNextMarker packet.marker = .ready packet.marker ∧ packet.marker ≠ modemEot := by
  unfold ModemPacket.marker
  split_ifs <;> exact ⟨rfl, by decide⟩

theorem run_retransmitted {r : XmodemReceiver} {packet : ModemPacket} (sized : packet.Sized)
    (listening : ∀ byte, xmodemReceiveFile.step r (.symbol byte) = r.onMarker byte) :
    xmodemReceiveFile.run r (packet.retransmitted.map .symbol) = r.onPacket packet := by
  obtain ⟨ready, notEot⟩ := waitForNextMarker_packet packet
  have opened : r.onMarker packet.marker = ({ r with phase := .packet packet.marker [] }, []) := by
    simp [onMarker, ready, notEot]
  rw [ModemPacket.retransmitted, modemSendPacket_crc, map_cons, Transducer.run_cons,
    listening, opened, run_packet_body, sized.marker_size, modemPacketData_full rfl]
  rfl

theorem listening_marker {r : XmodemReceiver} (between : r.phase = .marker) (byte : UInt8) :
    xmodemReceiveFile.step r (.symbol byte) = r.onMarker byte := by
  simp [xmodemReceiveFile, XmodemReceiver.step, between]

variable (n : Nat)

theorem ofNat_succ_ne_one_iff : ofNat (n + 1) ≠ 1 ↔ n % 256 ≠ 0 := by
  rw [ne_eq, ← UInt8.toNat_inj, toNat_ofNat']
  simp only [reduceToNat]
  omega

theorem duplicate_block_acknowledged_iff {r : XmodemReceiver} {blocks : List ModemPacket}
    {last : ModemPacket} (transfer : XmodemTransfer r (blocks ++ [last])) :
    ToleratesDuplicate r (blocks.length + 1) last ↔ (blocks.length + 1) % 256 ≠ 0 := by
  obtain ⟨⟨arrivals, signals, run, taken⟩, between⟩ := transfer
  have counted := counted_run arrivals
  rw [run] at counted
  have expected : r.expected = ofNat (blocks.length + 1 + 1) := by
    simpa [taken] using counted.expected
  obtain ⟨sized, number⟩ := counted.last last (by simp [taken])
  rw [taken, length_append, length_singleton] at number
  have previous : last.blockNo = r.expected - 1 := by
    rw [expected, number, ofNat_add (blocks.length + 1) 1]
    simp
  have repeated : last.blockNo ≠ r.expected := by
    rw [previous, ne_eq, ← UInt8.toNat_inj, UInt8.toNat_sub]
    have bound := r.expected.toNat_lt
    simp only [reduceToNat]
    omega
  have still : { r with phase := .marker } = r := by rw [← between]
  rw [← ofNat_succ_ne_one_iff, ← expected, ToleratesDuplicate,
    run_retransmitted sized (listening_marker between), and_iff_left expected]
  simp only [onPacket, if_neg repeated]
  split_ifs with guard
  · simp [still, guard.1]
  · have wrapped : r.expected = 1 := by
      by_contra different
      exact guard ⟨different, previous⟩
    simp [wrapped, modemNak, modemAck]

def zeroBlock (n : Nat) : ModemPacket := ⟨ofNat n, List.replicate xmodemBlockSize 0⟩

def zeroBlocks (n : Nat) : List ModemPacket := (List.range n).map fun k => zeroBlock (k + 1)

def afterZeroBlocks (n : Nat) : XmodemReceiver where
  expected := ofNat (n + 1)
  output := ⟨List.replicate (n * xmodemBlockSize) 0, 0, n * xmodemBlockSize⟩
  bytesReceived := n * xmodemBlockSize
  phase := if n = 0 then .firstMarker 23 else .marker

theorem onPacket_zeroBlock {n : Nat} (room : (n + 1) * xmodemBlockSize < 2 ^ 64) :
    (afterZeroBlocks n).onPacket (zeroBlock (n + 1)) =
      (afterZeroBlocks (n + 1), [.accepted (zeroBlock (n + 1)), .sent [modemAck]]) := by
  have content : (List.replicate xmodemBlockSize (0 : UInt8)).rdropWhile (· = modemEof) =
      List.replicate xmodemBlockSize 0 := by decide
  have size : (n + 1) * xmodemBlockSize = n * xmodemBlockSize + xmodemBlockSize :=
    Nat.succ_mul n xmodemBlockSize
  rw [size] at room
  have counted (overflow : String) : checkedAddU64 (n * xmodemBlockSize) xmodemBlockSize overflow =
      .ok (n * xmodemBlockSize + xmodemBlockSize) := if_pos room
  have before (overflow : String) : checkedAddU64 (n * xmodemBlockSize) 0 overflow =
      .ok (n * xmodemBlockSize) := if_pos (by omega)
  have nonempty : List.replicate xmodemBlockSize (0 : UInt8) ≠ [] := by decide
  have accepted : (afterZeroBlocks n).accept (zeroBlock (n + 1)) =
      .ok (afterZeroBlocks (n + 1)) := by
    simp only [accept, appendModemDataWithoutTrailingPadding, afterZeroBlocks,
      zeroBlock, content, if_neg nonempty, length_replicate, before, counted,
      replicate_zero, append_nil, pure, Except.pure, bind, Except.bind]
    rw [size, replicate_add, Nat.sub_self, if_neg n.succ_ne_zero, ofNat_add (n + 1) 1]
    rfl
  simp only [onPacket, accepted]
  exact if_pos rfl

theorem listening_afterZeroBlocks (byte : UInt8) :
    xmodemReceiveFile.step (afterZeroBlocks n) (.symbol byte) =
      (afterZeroBlocks n).onMarker byte := by
  by_cases first : n = 0
  · simp [xmodemReceiveFile, XmodemReceiver.step, afterZeroBlocks, first]
  · simp [xmodemReceiveFile, XmodemReceiver.step, afterZeroBlocks, first]

theorem zeroBlocks_received (room : n * xmodemBlockSize < 2 ^ 64) :
    ∃ arrivals signals, xmodemReceiveFile.run .start arrivals = (afterZeroBlocks n, signals) ∧
      acceptedPackets signals = zeroBlocks n := by
  induction n with
  | zero => exact ⟨[], [], rfl, rfl⟩
  | succ n ih =>
    obtain ⟨arrivals, signals, run, taken⟩ := ih (by rw [Nat.succ_mul] at room; omega)
    have sized : (zeroBlock (n + 1)).Sized := inl (length_replicate ..)
    refine ⟨arrivals ++ (zeroBlock (n + 1)).retransmitted.map .symbol,
      signals ++ [.accepted (zeroBlock (n + 1)), .sent [modemAck]], ?_, ?_⟩
    · rw [Transducer.run_append, run,
        run_retransmitted sized (listening_afterZeroBlocks n), onPacket_zeroBlock room]
    · rw [acceptedPackets_append, taken, zeroBlocks, zeroBlocks, range_succ, map_append]
      rfl

theorem zeroBlocks_transfer (room : (n + 1) * xmodemBlockSize < 2 ^ 64) :
    XmodemTransfer (afterZeroBlocks (n + 1)) (zeroBlocks n ++ [zeroBlock (n + 1)]) := by
  obtain ⟨arrivals, signals, run, taken⟩ := zeroBlocks_received (n + 1) room
  refine ⟨⟨arrivals, signals, run, ?_⟩, by simp [afterZeroBlocks]⟩
  rw [taken, zeroBlocks, range_succ, map_append]
  rfl

theorem first_block_acknowledged_again : ToleratesDuplicate (afterZeroBlocks 1) 1 (zeroBlock 1) :=
  (duplicate_block_acknowledged_iff (zeroBlocks_transfer 0 (by decide))).mpr (by decide)

/-- Block 256 has the number 0, and the guard takes it for a block before the first. -/
theorem block_256_not_acknowledged_again :
    ¬∀ r blocks last, XmodemTransfer r (blocks ++ [last]) →
      ToleratesDuplicate r (blocks.length + 1) last := by
  intro law
  have transfer := zeroBlocks_transfer 255 (by decide)
  have tolerated := law _ _ _ transfer
  have refused := (run_retransmitted (inl (length_replicate ..))
    (listening_marker transfer.between)).symm.trans tolerated.1
  have signals := congrArg Prod.snd refused
  have wrapped : (afterZeroBlocks (255 + 1)).onPacket (zeroBlock (255 + 1)) =
      ((afterZeroBlocks (255 + 1)).fail "XModem 收到失序数据块 0，预期 1", [.sent [modemNak]]) := by
    simp only [onPacket]
    rw [if_neg (by decide), if_neg (by decide)]
    rfl
  rw [wrapped] at signals
  simp [modemNak, modemAck] at signals

end PortMate
