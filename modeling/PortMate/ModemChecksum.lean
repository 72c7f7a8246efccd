import PortMate.CyclicCode
import PortMate.ModemPacket

namespace PortMate

open List Polynomial

/-- `modem_read_packet` with the bytes that have come after the marker. -/
def modemReadMarkedPacket (marker : UInt8) (bytes : List UInt8) : PacketRead :=
  if marker = modemSoh ∨ marker = modemStx then modemReadPacket marker bytes
  else .bad s!"unexpected modem packet marker: {marker}"

/-- The constant of the bit loop: the generator without its leading term. -/
def crc16Generator : BitVec 16 := 0x1021#16

/-- The bits of a byte in the order in which the checksum takes them. -/
def byteBits (byte : UInt8) : List Bool := bitsOf byte.toBitVec

def bytesBits (bytes : List UInt8) : List Bool := bytes.flatMap byteBits

theorem bytesBits_toBitVec (bytes : List UInt8) :
    bytesBits bytes = (bytes.map UInt8.toBitVec).flatMap bitsOf := by
  rw [flatMap_map]
  rfl

theorem bytesBits_length (bytes : List UInt8) : (bytesBits bytes).length = 8 * bytes.length := by
  simp [bytesBits, byteBits, length_flatMap, Nat.mul_comm]

theorem crc16Generator_polynomial :
    generatorPolynomial crc16Generator = X ^ 16 + X ^ 12 + X ^ 5 + 1 := by
  have bits : bitsOf crc16Generator = [false, false, false, true, false, false, false, false,
    false, false, true, false, false, false, false, true] := by decide
  simp [generatorPolynomial, bits, bitsPolynomial, wordPolynomial, bitValue, add_assoc]

theorem crc16Bit_shift (crc : UInt16) :
    (crc16Bit crc).toBitVec = cyclicShift crc16Generator crc.toBitVec := by
  have top : crc &&& 0x8000 ≠ 0 ↔ crc.toBitVec.msb = true := by
    rw [ne_eq, ← UInt16.toBitVec_inj, UInt16.toBitVec_and]
    change ¬ crc.toBitVec &&& BitVec.twoPow 16 15 = 0#16 ↔ _
    rw [BitVec.and_twoPow, BitVec.msb_eq_getLsbD_last]
    split
    next set => simp [set]
    next clear => exact ⟨fun differs => absurd rfl differs, fun set => absurd set clear⟩
  unfold crc16Bit cyclicShift
  by_cases set : crc &&& 0x8000 ≠ 0
  · rw [if_pos set, if_pos (top.mp set)]
    rfl
  · rw [if_neg set, if_neg (set ∘ top.mpr)]
    rfl

theorem crc16Bit_iterate (n : ℕ) (crc : UInt16) :
    (crc16Bit^[n] crc).toBitVec = (cyclicShift crc16Generator)^[n] crc.toBitVec := by
  induction n with
  | zero => rfl
  | succ n ih =>
    rw [Function.iterate_succ_apply', Function.iterate_succ_apply', crc16Bit_shift, ih]

theorem crc16Byte_step (crc : UInt16) (byte : UInt8) :
    (crc16Byte crc byte).toBitVec = cyclicStep crc16Generator crc.toBitVec byte.toBitVec :=
  crc16Bit_iterate 8 _

theorem crc16Xmodem_register (data : List UInt8) :
    (crc16Xmodem data).toBitVec =
      (data.map UInt8.toBitVec).foldl (cyclicStep crc16Generator) 0 := by
  have run : ∀ crc : UInt16, (data.foldl crc16Byte crc).toBitVec =
      (data.map UInt8.toBitVec).foldl (cyclicStep crc16Generator) crc.toBitVec := by
    induction data with
    | nil => exact fun _ => rfl
    | cons byte data ih =>
      intro crc
      rw [foldl_cons, map_cons, foldl_cons, ih, crc16Byte_step]
  exact run 0

theorem u16FromBeBytes_toBitVec (high low : UInt8) :
    (u16FromBeBytes high low).toBitVec = high.toBitVec ++ low.toBitVec := by
  apply BitVec.eq_of_toNat_eq
  have first := high.toNat_lt
  have second := low.toNat_lt
  rw [BitVec.toNat_append, ← Nat.shiftLeft_add_eq_or_of_lt low.toBitVec.isLt]
  simp only [u16FromBeBytes, UInt16.toNat_toBitVec, UInt16.toNat_ofNat', UInt8.toNat_toBitVec,
    Nat.shiftLeft_eq]
  omega

theorem crc_right_iff (data : List UInt8) (high low : UInt8) :
    u16FromBeBytes high low = crc16Xmodem data ↔
      generatorPolynomial crc16Generator ∣ bitsPolynomial (bytesBits (data ++ [high, low])) := by
  have bits : bytesBits (data ++ [high, low]) =
      (data.map UInt8.toBitVec).flatMap bitsOf ++ bitsOf (u16FromBeBytes high low).toBitVec := by
    rw [u16FromBeBytes_toBitVec, bitsOf_append, ← bytesBits_toBitVec]
    simp [bytesBits, byteBits]
  rw [bits, ← check_accepted_iff crc16Generator (by decide), ← crc16Xmodem_register]
  exact UInt16.toBitVec_inj.symm

theorem modemReadPacket_mismatch {marker blockNo high low : UInt8} {data : List UInt8}
    (full : data.length = modemBlockSize marker)
    (wrong : u16FromBeBytes high low ≠ crc16Xmodem data) :
    ∃ error, modemReadPacket marker (blockNo :: (255 - blockNo) :: (data ++ [high, low])) =
      .bad error := by
  simp [modemReadPacket, ← full, wrong]

theorem last_two {size : ℕ} {bytes : List UInt8} (total : bytes.length = size + 2) :
    ∃ data high low, bytes = data ++ [high, low] ∧ data.length = size := by
  have tail : (bytes.drop size).length = 2 := by
    rw [length_drop]
    omega
  obtain ⟨high, low, two⟩ := length_eq_two.mp tail
  refine ⟨bytes.take size, high, low, ?_, ?_⟩
  · rw [← two, take_append_drop]
  · rw [length_take]
    omega

theorem burst_rejected {marker blockNo : UInt8} {data received : List UInt8}
    (full : data.length = modemBlockSize marker)
    (apart : BurstApart 16 (bytesBits (data ++ u16ToBeBytes (crc16Xmodem data)))
      (bytesBits received)) :
    ∃ error, modemReadPacket marker (blockNo :: (255 - blockNo) :: received) = .bad error := by
  have valid : generatorPolynomial crc16Generator ∣
      bitsPolynomial (bytesBits (data ++ u16ToBeBytes (crc16Xmodem data))) :=
    (crc_right_iff data _ _).mp (u16FromBeBytes_toBeBytes _)
  have constant : (generatorPolynomial crc16Generator).coeff 0 ≠ 0 := by
    rw [crc16Generator_polynomial]
    simp
  have refused := burst_detected constant (generator_degree crc16Generator).ge
    (apart.map bitValue_injective) valid
  have total : received.length = modemBlockSize marker + 2 := by
    have length := apart.length
    rw [bytesBits_length, bytesBits_length, length_append, u16ToBeBytes_length] at length
    omega
  obtain ⟨kept, high, low, rfl, whole⟩ := last_two total
  exact modemReadPacket_mismatch whole (refused ∘ (crc_right_iff kept high low).mp)

theorem checksum_packet_unread (marker blockNo : UInt8) (payload : List UInt8) :
    ∃ body, modemPacketBytes marker blockNo payload (modemBlockSize marker) false =
      marker :: body ∧ modemReadPacket marker body = .more := by
  refine ⟨_, rfl, ?_⟩
  simp [modemReadPacket]

/-- The program reads back the packets with a checksum of sixteen bits, which is all that its
receivers ask for; a packet with a sum of eight bits leaves them waiting for one more byte. -/
theorem modem_packets_read_back (marker blockNo : UInt8)
    (marked : marker = modemSoh ∨ marker = modemStx) :
    (∀ payload : List UInt8, payload.length ≤ modemBlockSize marker →
      ∃ body, modemPacketBytes marker blockNo payload (modemBlockSize marker) true =
          marker :: body ∧
        modemReadMarkedPacket marker body = .packet ⟨blockNo,
          payload ++ List.replicate (modemBlockSize marker - payload.length) modemEof⟩) ∧
    (∀ payload : List UInt8,
      ∃ body, modemPacketBytes marker blockNo payload (modemBlockSize marker) false =
          marker :: body ∧ modemReadMarkedPacket marker body = .more) ∧
    (∀ data : List UInt8, bitsPolynomial (bitsOf (crc16Xmodem data).toBitVec) =
      (bitsPolynomial (bytesBits data) * X ^ 16) %ₘ (X ^ 16 + X ^ 12 + X ^ 5 + 1)) ∧
    ∀ data received : List UInt8, data.length = modemBlockSize marker →
      BurstApart 16 (bytesBits (data ++ u16ToBeBytes (crc16Xmodem data))) (bytesBits received) →
      ∃ error, modemReadMarkedPacket marker (blockNo :: (255 - blockNo) :: received) =
        .bad error := by
  have reads : ∀ bytes, modemReadMarkedPacket marker bytes = modemReadPacket marker bytes :=
    fun bytes => if_pos marked
  refine ⟨?_, ?_, ?_, ?_⟩
  · intro payload fits
    refine ⟨modemPacketBody marker blockNo payload, modemSendPacket_crc marker blockNo payload, ?_⟩
    rw [reads, modemReadPacket_whole, modemPacketData, take_of_length_le fits]
  · intro payload
    obtain ⟨body, sent, waiting⟩ := checksum_packet_unread marker blockNo payload
    exact ⟨body, sent, (reads body).trans waiting⟩
  · intro data
    rw [crc16Xmodem_register, cyclicRegister_empty crc16Generator (by decide), ← bytesBits_toBitVec,
      crc16Generator_polynomial]
  · intro data received full apart
    rw [reads]
    exact burst_rejected full apart

def zeroData : List UInt8 := 0 :: List.replicate 127 0

theorem sample_packet_read_back :
    (∃ body, modemPacketBytes modemSoh 1 [0x41] (modemBlockSize modemSoh) true =
        modemSoh :: body ∧
      modemReadMarkedPacket modemSoh body =
        .packet ⟨1, [0x41] ++ List.replicate (modemBlockSize modemSoh - 1) modemEof⟩) ∧
    ∃ error, modemReadMarkedPacket modemSoh (1 :: (255 - 1) :: 1 ::
      (List.replicate 127 0 ++ u16ToBeBytes (crc16Xmodem zeroData))) = .bad error := by
  obtain ⟨whole, -, -, bursts⟩ := modem_packets_read_back modemSoh 1 (.inl rfl)
  refine ⟨whole [0x41] (by decide), bursts zeroData _ (by simp [zeroData]; rfl) ?_⟩
  refine ⟨[], byteBits 0, byteBits 1, bytesBits
    (List.replicate 127 0 ++ u16ToBeBytes (crc16Xmodem zeroData)), ?_, ?_, rfl, by decide,
    by decide⟩
  · rw [zeroData, cons_append, bytesBits, flatMap_cons]
    rfl
  · rw [bytesBits, flatMap_cons]
    rfl

theorem checksum_packet_not_read_back :
    ¬ ∀ (crc : Bool) (payload : List UInt8), payload.length ≤ modemBlockSize modemSoh →
      ∃ body, modemPacketBytes modemSoh 1 payload (modemBlockSize modemSoh) crc =
          modemSoh :: body ∧
        modemReadMarkedPacket modemSoh body = .packet ⟨1,
          payload ++ List.replicate (modemBlockSize modemSoh - payload.length) modemEof⟩ := by
  intro claimed
  obtain ⟨body, sent, packet⟩ := claimed false [] (Nat.zero_le _)
  obtain ⟨waited, resent, waiting⟩ := checksum_packet_unread modemSoh 1 []
  obtain rfl := (List.cons.inj (sent.symm.trans resent)).2
  rw [modemReadMarkedPacket, if_pos (.inl rfl), waiting] at packet
  cases packet

end PortMate
