import PortMate.LogPaths

namespace PortMate

open List Nat

def maxLogSegmentBytes : Nat := 4 * 1024 * 1024

/-- The digest of 32 bytes that the crate computes. -/
structure Sha256 where
  digest : List UInt8 → List UInt8
  length : ∀ bytes, (digest bytes).length = 32

def lowerHexDigit (value : Nat) : Char :=
  if value < 10 then Char.ofNat (48 + value) else Char.ofNat (87 + value)

def lowerHexByte (byte : UInt8) : List Char :=
  [lowerHexDigit (byte.toNat / 16), lowerHexDigit (byte.toNat % 16)]

namespace Sha256

variable (sha256 : Sha256)

/-- `sha256_hex`. -/
def hex (bytes : List UInt8) : List Char := (sha256.digest bytes).flatMap lowerHexByte

end Sha256

structure ParsedLogBytesRef where
  relative : List Char
  offset : Nat
  length : Nat
  sha256 : Option (List Char)
  deriving DecidableEq

/-- The format at the end of `append_log_bytes`. -/
def formatLogBytesRef (relative : List Char) (offset length : Nat) (sha256 : List Char) :
    List Char :=
  "v2:".toList ++ relative ++ ':' :: toDigits 10 offset ++ ':' :: toDigits 10 length ++
    ':' :: sha256

/-- The last part of a text before its separator, and what is left, where there is one. -/
def nextPart (text : Option (List Char)) : Option (List Char) × Option (List Char) :=
  match text with
  | none => (none, none)
  | some text =>
    match rsplitOnce ':' text with
    | none => (some text, none)
    | some (before, last) => (some last, some before)

def isSha256Text (text : List Char) : Bool :=
  text.length = 64 && text.all fun c => (hexDigit? c).isSome

/-- The four parts of a reference of the second version. -/
def parseV2 (text : List Char) : Option ParsedLogBytesRef := do
  let (sha256, text) := nextPart (some text)
  let (length, text) := nextPart text
  let (offset, relative) := nextPart text
  let sha256 ← sha256.filter isSha256Text
  let length ← length.bind parseUsize
  let offset ← offset.bind parseUsize
  let relative ← relative.filter fun relative => !relative.isEmpty
  return { relative, offset, length, sha256 := some (sha256.map asciiLower) }

def parseLogBytesRef (reference : List Char) : Except String ParsedLogBytesRef :=
  let v2 := if "v2:".toList.isPrefixOf reference then parseV2 (reference.drop 3) else none
  match v2 with
  | some parsed => .ok parsed
  | none =>
    let (length, text) := nextPart (some reference)
    let (offset, relative) := nextPart text
    match length.bind parseUsize, offset.bind parseUsize,
      relative.filter fun relative => !relative.isEmpty with
    | none, _, _ => .error "invalid bytesRef length"
    | some _, none, _ => .error "invalid bytesRef offset"
    | some _, some _, none => .error "invalid bytesRef path"
    | some length, some offset, some relative =>
      .ok { relative, offset, length, sha256 := none }

section RoundTrip

theorem lowerHexDigit_spec {value : Nat} (small : value < 16) :
    (hexDigit? (lowerHexDigit value)).isSome = true ∧
      asciiLower (lowerHexDigit value) = lowerHexDigit value ∧ lowerHexDigit value ≠ ':' := by
  have all : ∀ value < 16, (hexDigit? (lowerHexDigit value)).isSome = true ∧
      asciiLower (lowerHexDigit value) = lowerHexDigit value ∧ lowerHexDigit value ≠ ':' := by
    decide
  exact all value small

theorem mem_lowerHex {bytes : List UInt8} {c : Char} (mem : c ∈ bytes.flatMap lowerHexByte) :
    ∃ value < 16, c = lowerHexDigit value := by
  obtain ⟨byte, _, inside⟩ := mem_flatMap.mp mem
  have bound := byte.toNat_lt
  obtain rfl | rfl : c = lowerHexDigit (byte.toNat / 16) ∨ c = lowerHexDigit (byte.toNat % 16) := by
    simpa [lowerHexByte] using inside
  · exact ⟨_, by omega, rfl⟩
  · exact ⟨_, mod_lt _ (by decide), rfl⟩

structure DigestText (text : List Char) : Prop where
  accepted : isSha256Text text = true
  lower : text.map asciiLower = text
  plain : ':' ∉ text

theorem Sha256.hex_digest (sha256 : Sha256) (bytes : List UInt8) :
    DigestText (sha256.hex bytes) := by
  have width : ∀ digest : List UInt8, (digest.flatMap lowerHexByte).length = 2 * digest.length := by
    intro digest
    induction digest with
    | nil => rfl
    | cons byte digest ih =>
      rw [flatMap_cons, length_append, ih, length_cons]
      change 2 + _ = _
      omega
  refine ⟨?_, ?_, fun colon => ?_⟩
  · unfold isSha256Text
    rw [Bool.and_eq_true]
    constructor
    · rw [decide_eq_true_eq, hex, width, sha256.length]
    · refine all_eq_true.mpr fun c mem => ?_
      obtain ⟨value, small, rfl⟩ := mem_lowerHex mem
      exact (lowerHexDigit_spec small).1
  · refine (map_congr_left fun c mem => ?_).trans (map_id _)
    obtain ⟨value, small, rfl⟩ := mem_lowerHex mem
    exact (lowerHexDigit_spec small).2.1
  · obtain ⟨value, small, same⟩ := mem_lowerHex colon
    exact (lowerHexDigit_spec small).2.2 same.symm

theorem nextPart_append {before last : List Char} (plain : ':' ∉ last) :
    nextPart (some (before ++ ':' :: last)) = (some last, some before) := by
  simp only [nextPart, rsplitOnce_append before plain]

theorem toDigits_plain (n : Nat) : ':' ∉ toDigits 10 n :=
  fun mem => absurd (toDigits_isDigit mem) (by decide)

theorem parse_format {relative sha256 : List Char} {offset length : Nat} (filled : relative ≠ [])
    (offset_fits : offset < 2 ^ 64) (length_fits : length < 2 ^ 64) (digest : DigestText sha256) :
    parseLogBytesRef (formatLogBytesRef relative offset length sha256) =
      .ok ⟨relative, offset, length, some sha256⟩ := by
  have parsed : parseV2 (relative ++ ':' :: toDigits 10 offset ++
      ':' :: toDigits 10 length ++ ':' :: sha256) =
      some ⟨relative, offset, length, some sha256⟩ := by
    unfold parseV2
    rw [nextPart_append digest.plain]
    simp only
    rw [nextPart_append (toDigits_plain length)]
    simp only
    rw [nextPart_append (toDigits_plain offset)]
    simp [Option.filter, digest.accepted, parseUsize_toDigits length_fits,
      parseUsize_toDigits offset_fits, filled, digest.lower]
  unfold parseLogBytesRef
  have marked : "v2:".toList.isPrefixOf (formatLogBytesRef relative offset length sha256) = true := by
    rw [List.isPrefixOf_iff_prefix, formatLogBytesRef, append_assoc, append_assoc,
      append_assoc]
    exact prefix_append _ _
  have rest : (formatLogBytesRef relative offset length sha256).drop 3 =
      relative ++ ':' :: toDigits 10 offset ++ ':' :: toDigits 10 length ++
        ':' :: sha256 := by
    simp [formatLogBytesRef]
  rw [if_pos marked, rest, parsed]

end RoundTrip

end PortMate
