import PortMate.Utf8Reading
import PortMate.Ymodem

namespace PortMate

open List Nat

def decimalBytes (n : Nat) : List UInt8 := (toDigits 10 n).map fun c => c.val.toUInt8

theorem digit_lt {c : Char} (digit : c.isDigit = true) : c.val < 0x80 := by
  simp only [Char.isDigit, Bool.and_eq_true, decide_eq_true_eq] at digit
  exact UInt32.lt_of_le_of_lt digit.2 (by decide)

theorem utf8Bytes_digits {digits : List Char} (ascii : ∀ c ∈ digits, c.val < 0x80) :
    digits.flatMap String.utf8EncodeChar = digits.map fun c => c.val.toUInt8 := by
  induction digits with
  | nil => rfl
  | cons c digits ih =>
    obtain ⟨first, others⟩ := forall_mem_cons.mp ascii
    have single := utf8EncodeChar_ascii (c := c) (by
      have bound := UInt32.lt_iff_toNat_lt.mp first
      exact UInt32.le_iff_toNat_le.mpr (le_of_lt_succ bound))
    rw [flatMap_cons, single, ih others]
    rfl

theorem utf8Bytes_toString (n : Nat) : utf8Bytes (toString n) = decimalBytes n := by
  have digits : (toString n).toList = toDigits 10 n := toList_repr
  rw [utf8Bytes, digits]
  exact utf8Bytes_digits fun c mem => digit_lt (toDigits_isDigit mem)

theorem fromUtf8Lossy_digits {digits : List Char} (ascii : ∀ c ∈ digits, c.val < 0x80)
    (rest : List UInt8) :
    fromUtf8Lossy ((digits.map fun c => c.val.toUInt8) ++ rest) = digits ++ fromUtf8Lossy rest := by
  induction digits with
  | nil => rfl
  | cons c digits ih =>
    obtain ⟨first, others⟩ := forall_mem_cons.mp ascii
    rw [map_cons, cons_append, fromUtf8Lossy_ascii first, ih others]
    rfl

theorem ymodemMetadataBlock_ok {name : String} {total : Nat} {metadata : List UInt8}
    (h : ymodemMetadataBlock name total = .ok metadata) :
    metadata.length = xmodemBlockSize ∧ '\x00' ∉ name.toList ∧ ∃ padding : List UInt8,
      metadata = utf8Bytes name ++ 0 :: (decimalBytes total ++ 32 :: padding) := by
  simp only [ymodemMetadataBlock] at h
  split_ifs at h with nul long
  cases h
  refine ⟨?_, nul, List.replicate (xmodemBlockSize -
    (utf8Bytes (name ++ "\x00" ++ toString total ++ " ")).length) 0, ?_⟩
  · rw [length_append, length_replicate]
    omega
  · have separator : utf8Bytes "\x00" = [0] := by decide
    have space : utf8Bytes " " = [32] := by decide
    simp only [utf8Bytes_append, utf8Bytes_toString, separator, space]
    simp

theorem parseYmodemMetadata_block {name : String} {total : Nat} {metadata : List UInt8}
    (h : ymodemMetadataBlock name total = .ok metadata) (bound : total < 2 ^ 64) :
    parseYmodemMetadata metadata = (fromUtf8Lossy (utf8Bytes name), some total) := by
  obtain ⟨-, clean, padding, rfl⟩ := ymodemMetadataBlock_ok h
  have nonzero : ∀ byte ∈ utf8Bytes name, decide (byte ≠ 0) = true := fun byte mem =>
    decide_eq_true fun zero => utf8Bytes_ne_zero clean (zero ▸ mem)
  have taken : (utf8Bytes name ++ 0 :: (decimalBytes total ++ 32 :: padding)).takeWhile (· ≠ 0) =
      utf8Bytes name := by
    rw [takeWhile_append_of_pos nonzero]
    simp
  have rest : (utf8Bytes name ++ 0 :: (decimalBytes total ++ 32 :: padding)).drop
      ((utf8Bytes name).length + 1) = decimalBytes total ++ 32 :: padding := by
    rw [← drop_drop, drop_left]
    rfl
  have space : fromUtf8Lossy (32 :: padding) = ' ' :: fromUtf8Lossy padding :=
    fromUtf8Lossy_ascii (c := ' ') (by decide) padding
  have digits : fromUtf8Lossy (decimalBytes total ++ 32 :: padding) =
      toDigits 10 total ++ ' ' :: fromUtf8Lossy padding := by
    rw [decimalBytes, fromUtf8Lossy_digits fun c mem => digit_lt (toDigits_isDigit mem), space]
  simp only [parseYmodemMetadata, taken, rest, digits, firstWord_digits, Option.bind_some,
    parseUsize_toDigits bound]

/-- The metadata block is full size, says name and size as they are, and belongs to no others. -/
theorem ymodem_metadata_round_trip {name : String} {total : Nat} {metadata : List UInt8}
    (named : ymodemMetadataBlock name total = .ok metadata) (bound : total < 2 ^ 64) :
    metadata.length = 128 ∧ parseYmodemMetadata metadata = (name.toList, some total) ∧
      ∀ name' total', total' < 2 ^ 64 → ymodemMetadataBlock name' total' = .ok metadata →
        name' = name ∧ total' = total := by
  have read := parseYmodemMetadata_block named bound
  rw [fromUtf8Lossy_utf8Bytes] at read
  refine ⟨(ymodemMetadataBlock_ok named).1, read, fun name' total' bound' named' => ?_⟩
  have read' := parseYmodemMetadata_block named' bound'
  rw [read, fromUtf8Lossy_utf8Bytes, Prod.mk.injEq, Option.some.injEq] at read'
  exact ⟨String.toList_inj.mp read'.1.symm, read'.2.symm⟩

theorem firmware_metadata_read_back : ∃ metadata, ymodemMetadataBlock "固件 1.bin" 70 = .ok metadata ∧
    parseYmodemMetadata metadata = ("固件 1.bin".toList, some 70) := by
  have named : ∃ metadata, ymodemMetadataBlock "固件 1.bin" 70 = .ok metadata := by
    simp only [ymodemMetadataBlock]
    rw [if_neg (by decide), if_neg (by decide)]
    exact ⟨_, rfl⟩
  obtain ⟨metadata, named⟩ := named
  exact ⟨metadata, named, (ymodem_metadata_round_trip named (by decide)).2.1⟩

end PortMate
