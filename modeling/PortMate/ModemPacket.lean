import Mathlib.Data.UInt
import PortMate.ModemProtocol

namespace PortMate

open List UInt8

@[simp] theorem modemPacketData_length (payload : List UInt8) (size : Nat) :
    (modemPacketData payload size).length = size := by
  simp only [modemPacketData, length_append, length_take, length_replicate]
  omega

theorem modemPacketData_full {data : List UInt8} {size : Nat} (full : data.length = size) :
    modemPacketData data size = data := by
  simp [modemPacketData, ← full]

def modemPacketBody (marker blockNo : UInt8) (payload : List UInt8) : List UInt8 :=
  blockNo :: (255 - blockNo) :: (modemPacketData payload (modemBlockSize marker) ++
    u16ToBeBytes (crc16Xmodem (modemPacketData payload (modemBlockSize marker))))

variable (marker blockNo : UInt8)

theorem modemSendPacket_crc (payload : List UInt8) :
    modemSendPacket marker blockNo payload true =
      marker :: modemPacketBody marker blockNo payload := by
  simp [modemSendPacket, modemPacketBytes, modemPacketBody]

theorem modemPacketBody_ne_nil (payload : List UInt8) :
    modemPacketBody marker blockNo payload ≠ [] := by
  simp [modemPacketBody]

theorem modemReadPacket_whole (payload : List UInt8) :
    modemReadPacket marker (modemPacketBody marker blockNo payload) =
      .packet ⟨blockNo, modemPacketData payload (modemBlockSize marker)⟩ := by
  simp [modemReadPacket, modemPacketBody, u16ToBeBytes, u16FromBeBytes_toBeBytes]

theorem modemReadPacket_part {marker blockNo : UInt8} {payload part rest : List UInt8}
    (split : modemPacketBody marker blockNo payload = part ++ rest) (remains : rest ≠ []) :
    modemReadPacket marker part = .more := by
  match part with
  | [] => rfl
  | [_] => rfl
  | first :: second :: body =>
    obtain ⟨rfl, tail⟩ := List.cons.inj split
    obtain ⟨rfl, same⟩ := List.cons.inj tail
    change _ = body ++ rest at same
    have short : (body.drop (modemBlockSize marker)).length < 2 := by
      have total := congrArg List.length same
      have positive := length_pos_of_ne_nil remains
      simp only [length_append, modemPacketData_length, u16ToBeBytes_length] at total
      simp only [length_drop]
      omega
    simp only [modemReadPacket, sub_sub_cancel, ne_eq, not_true, ↓reduceIte]
    split
    next split => exact absurd short (by simp [split])
    next => rfl

theorem run_packet {σ β : Type} {t : Transducer σ (Arrival UInt8) β}
    (collecting : List UInt8 → σ) (whole : ModemPacket → σ × List β) {marker blockNo : UInt8}
    {payload : List UInt8}
    (more : ∀ bytes byte, modemReadPacket marker (bytes ++ [byte]) = .more →
      t.step (collecting bytes) (.symbol byte) = (collecting (bytes ++ [byte]), []))
    (read : ∀ bytes byte packet, modemReadPacket marker (bytes ++ [byte]) = .packet packet →
      t.step (collecting bytes) (.symbol byte) = whole packet)
    (part rest : List UInt8) (remains : rest ≠ [])
    (split : modemPacketBody marker blockNo payload = part ++ rest) :
    t.run (collecting part) (rest.map .symbol) =
      whole ⟨blockNo, modemPacketData payload (modemBlockSize marker)⟩ := by
  induction rest generalizing part with
  | nil => exact absurd rfl remains
  | cons byte rest ih =>
    have split' : modemPacketBody marker blockNo payload = (part ++ [byte]) ++ rest := by
      simp [split]
    rw [map_cons, Transducer.run_cons]
    by_cases last : rest = []
    · rw [last, append_nil] at split'
      have complete := modemReadPacket_whole marker blockNo payload
      rw [split'] at complete
      simp [last, read _ _ _ complete]
    · rw [more _ _ (modemReadPacket_part split' last), ih _ last split']
      rfl

theorem ofNat_succ_ne (d : Nat) : ofNat d ≠ ofNat (d + 1) := by
  rw [ne_eq, ← UInt8.toNat_inj, toNat_ofNat', toNat_ofNat']
  omega

/-- The output holds what was received without the padding at its end. -/
structure ModemOutput.Trimmed (output : ModemOutput) (received : List UInt8) : Prop where
  file : output.file = received.rdropWhile (· = modemEof)
  padded : output.file ++ List.replicate output.trailingPadding modemEof = received
  bytesWritten : output.bytesWritten = output.file.length

theorem trimmed_create : ModemOutput.create.Trimmed [] := ⟨rfl, rfl, rfl⟩

theorem rdropWhile_append {p : UInt8 → Bool} (xs ys : List UInt8) :
    (xs ++ ys).rdropWhile p =
      if ys.rdropWhile p = [] then xs.rdropWhile p else xs ++ ys.rdropWhile p := by
  simp only [List.rdropWhile, reverse_append, dropWhile_append, List.isEmpty_iff,
    reverse_eq_nil_iff]
  split_ifs <;> simp

theorem rdropWhile_append_padding (data : List UInt8) :
    data.rdropWhile (· = modemEof) ++
      List.replicate (data.length - (data.rdropWhile (· = modemEof)).length) modemEof = data := by
  have whole := rdropWhile_append_rtakeWhile (p := (· = modemEof)) (l := data)
  have padding : data.rtakeWhile (· = modemEof) =
      List.replicate (data.rtakeWhile (· = modemEof)).length modemEof := by
    refine eq_replicate_of_mem fun byte mem => ?_
    simpa using mem_rtakeWhile_imp mem
  have size := congrArg List.length whole
  rw [length_append] at size
  have rest : data.length - (data.rdropWhile (· = modemEof)).length =
      (data.rtakeWhile (· = modemEof)).length := by omega
  rw [rest, ← padding, whole]

theorem append_trimmed {output output' : ModemOutput} {received data : List UInt8}
    (trimmed : output.Trimmed received)
    (h : appendModemDataWithoutTrailingPadding output data = .ok output') :
    output'.Trimmed (received ++ data) := by
  have ending := rdropWhile_append_padding data
  simp only [appendModemDataWithoutTrailingPadding] at h
  split_ifs at h with onlyPadding
  · obtain ⟨padding, added, h⟩ := except_bind_eq_ok h
    cases h
    rw [onlyPadding] at ending
    refine ⟨?_, ?_, trimmed.bytesWritten⟩
    · rw [rdropWhile_append, if_pos onlyPadding, trimmed.file]
    · rw [checkedAddU64_ok added, replicate_add, ← append_assoc, trimmed.padded]
      simpa using ending
  · obtain ⟨padded, added, h⟩ := except_bind_eq_ok h
    obtain ⟨bytesWritten, more, h⟩ := except_bind_eq_ok h
    cases h
    refine ⟨?_, ?_, ?_⟩
    · simp only [rdropWhile_append, if_neg onlyPadding, trimmed.padded]
    · simp only [trimmed.padded, append_assoc, ending]
    · simp [checkedAddU64_ok more, checkedAddU64_ok added, trimmed.bytesWritten, Nat.add_assoc]

/-- The output holds the first `limit` bytes received. -/
structure ModemOutput.Limited (output : ModemOutput) (limit : Nat) (received : List UInt8) :
    Prop where
  file : output.file = received.take limit
  bytesWritten : output.bytesWritten = output.file.length

theorem append_limited {output output' : ModemOutput} {limit : Nat} {received data : List UInt8}
    (limited : output.Limited limit received)
    (h : appendModemDataWithSizeLimit output data limit = .ok output') :
    output'.Limited limit (received ++ data) := by
  have written := limited.bytesWritten
  have kept := congrArg List.length limited.file
  rw [length_take] at kept
  simp only [appendModemDataWithSizeLimit] at h
  split_ifs at h with nothing
  · cases h
    refine ⟨?_, written⟩
    rw [limited.file, take_append]
    have none_taken : data.take (limit - received.length) = [] := by
      rw [take_eq_nil_iff, ← length_eq_zero_iff]
      omega
    rw [none_taken, append_nil]
  · obtain ⟨bytesWritten, added, h⟩ := except_bind_eq_ok h
    cases h
    have room : min (limit - output.bytesWritten) data.length =
        min (limit - received.length) data.length := by omega
    refine ⟨?_, ?_⟩
    · simp only [room, take_append, limited.file, append_cancel_left_eq]
      exact (take_eq_take_min ..).symm
    · simp only [checkedAddU64_ok added, length_append, length_take]
      omega

/-- The piece of the source that the send loop reads after `bytesDone` bytes. -/
def modemNextRead (source : List UInt8) (bytesDone blockSize : Nat) : List UInt8 :=
  (source.drop bytesDone).take (min (source.length - bytesDone) blockSize)

/-- What a receiver has after `blocks` blocks of a source. -/
def paddedPrefix (source : List UInt8) (size blocks : Nat) : List UInt8 :=
  source.take (blocks * size) ++ List.replicate (blocks * size - source.length) modemEof

theorem paddedPrefix_succ {source : List UInt8} {size blocks : Nat}
    (more : blocks * size < source.length) :
    paddedPrefix source size blocks ++
        modemPacketData (modemNextRead source (blocks * size) size) size =
      paddedPrefix source size (blocks + 1) := by
  have full : blocks * size - source.length = 0 := by omega
  have next : (blocks + 1) * size = blocks * size + size := Nat.succ_mul blocks size
  have read : (modemNextRead source (blocks * size) size).take size =
      (source.drop (blocks * size)).take size := by
    rw [modemNextRead, take_take, take_eq_take_iff, length_drop]
    omega
  have missing : size - (modemNextRead source (blocks * size) size).length =
      blocks * size + size - source.length := by
    simp only [modemNextRead, length_take, length_drop]
    omega
  rw [paddedPrefix, paddedPrefix, full, next, take_add, modemPacketData, read, missing]
  simp

theorem paddedPrefix_take {source : List UInt8} {size blocks : Nat}
    (whole : source.length ≤ blocks * size) :
    (paddedPrefix source size blocks).take source.length = source := by
  simp [paddedPrefix, take_of_length_le whole]

theorem paddedPrefix_rdropWhile {source : List UInt8} {size blocks : Nat}
    (whole : source.length ≤ blocks * size) :
    (paddedPrefix source size blocks).rdropWhile (· = modemEof) =
      source.rdropWhile (· = modemEof) := by
  rw [paddedPrefix, take_of_length_le whole, rdropWhile_append, if_pos]
  simp [rdropWhile_eq_nil_iff]

end PortMate
