import Mathlib.Algebra.GroupWithZero.Nat
import Mathlib.Data.List.DropRight
import PortMate.RustPrimitives

namespace PortMate

open List Bool Char Nat

/-- `str::as_bytes`. -/
def utf8Bytes (text : String) : List UInt8 := text.toList.flatMap String.utf8EncodeChar

theorem utf8Bytes_append (xs ys : String) : utf8Bytes (xs ++ ys) = utf8Bytes xs ++ utf8Bytes ys := by
  simp [utf8Bytes]

theorem utf8EncodeChar_ne_zero {c : Char} (nonzero : c ≠ '\x00') :
    0 ∉ String.utf8EncodeChar c := by
  rw [String.utf8EncodeChar_eq_utf8EncodeCharFast]
  unfold String.utf8EncodeCharFast
  simp only
  split_ifs with one two three
  · intro mem
    have zero : c.val.toUInt8 = 0 := (mem_singleton.mp mem).symm
    apply nonzero
    apply Char.ext
    rw [← UInt8.toNat_inj, UInt32.toNat_toUInt8, UInt8.toNat_zero] at zero
    have small : c.val.toNat ≤ 127 := UInt32.le_iff_toNat_le.mp one
    apply UInt32.toNat_inj.mp
    change c.val.toNat = 0
    omega
  all_goals simp [eq_comm (a := (0 : UInt8))]

theorem utf8Bytes_ne_zero {text : String} (clean : '\x00' ∉ text.toList) : 0 ∉ utf8Bytes text := by
  intro mem
  obtain ⟨c, mem, zero⟩ := mem_flatMap.mp mem
  exact utf8EncodeChar_ne_zero (fun same => clean (same ▸ mem)) zero

theorem utf8EncodeChar_ascii {c : Char} (ascii : c.val ≤ 0x7f) :
    String.utf8EncodeChar c = [c.val.toUInt8] := by
  rw [String.utf8EncodeChar_eq_utf8EncodeCharFast]
  exact if_pos ascii

def isContinuation (byte : UInt8) : Bool := 0x80 ≤ byte && byte ≤ 0xBF

/-- The second bytes that may follow a first byte of a sequence of three or four. -/
def isSecondByte (first second : UInt8) : Bool :=
  if first = 0xE0 then 0xA0 ≤ second && second ≤ 0xBF
  else if first = 0xED then 0x80 ≤ second && second ≤ 0x9F
  else if first = 0xF0 then 0x90 ≤ second && second ≤ 0xBF
  else if first = 0xF4 then 0x80 ≤ second && second ≤ 0x8F
  else isContinuation second

def replacementChar : Char := '\uFFFD'

/-- The first character of a byte string and the number of further bytes it takes;
a maximal broken sequence counts as one replacement character. -/
def utf8LossyChar (first : UInt8) (rest : List UInt8) : Char × Nat :=
  if first < 0x80 then (Char.ofNat first.toNat, 0)
  else if 0xC2 ≤ first ∧ first ≤ 0xDF then
    match rest with
    | second :: _ =>
      if isContinuation second then
        (Char.ofNat (first.toNat % 32 * 64 + second.toNat % 64), 1)
      else (replacementChar, 0)
    | [] => (replacementChar, 0)
  else if 0xE0 ≤ first ∧ first ≤ 0xEF then
    match rest with
    | second :: third :: _ =>
      if !isSecondByte first second then (replacementChar, 0)
      else if isContinuation third then
        (Char.ofNat (first.toNat % 16 * 4096 + second.toNat % 64 * 64 + third.toNat % 64), 2)
      else (replacementChar, 1)
    | [second] => if isSecondByte first second then (replacementChar, 1) else (replacementChar, 0)
    | [] => (replacementChar, 0)
  else if 0xF0 ≤ first ∧ first ≤ 0xF4 then
    match rest with
    | second :: third :: fourth :: _ =>
      if !isSecondByte first second then (replacementChar, 0)
      else if !isContinuation third then (replacementChar, 1)
      else if isContinuation fourth then
        (Char.ofNat (first.toNat % 8 * 262144 + second.toNat % 64 * 4096 +
          third.toNat % 64 * 64 + fourth.toNat % 64), 3)
      else (replacementChar, 2)
    | [second, third] =>
      if !isSecondByte first second then (replacementChar, 0)
      else if isContinuation third then (replacementChar, 2)
      else (replacementChar, 1)
    | [second] => if isSecondByte first second then (replacementChar, 1) else (replacementChar, 0)
    | [] => (replacementChar, 0)
  else (replacementChar, 0)

/-- `String::from_utf8_lossy`. -/
def fromUtf8Lossy : List UInt8 → List Char
  | [] => []
  | first :: rest =>
    (utf8LossyChar first rest).1 :: fromUtf8Lossy (rest.drop (utf8LossyChar first rest).2)
termination_by bytes => bytes.length
decreasing_by simp only [length_drop, length_cons]; omega

theorem fromUtf8Lossy_eq_nil_iff {bytes : List UInt8} : fromUtf8Lossy bytes = [] ↔ bytes = [] := by
  cases bytes <;> simp [fromUtf8Lossy]

theorem fromUtf8Lossy_ascii {c : Char} (ascii : c.val < 0x80) (rest : List UInt8) :
    fromUtf8Lossy (c.val.toUInt8 :: rest) = c :: fromUtf8Lossy rest := by
  have small : c.val.toNat < 128 := UInt32.lt_iff_toNat_lt.mp ascii
  have value : c.val.toUInt8.toNat = c.val.toNat := by
    rw [UInt32.toNat_toUInt8]
    omega
  have first : c.val.toUInt8 < 0x80 := UInt8.lt_iff_toNat_lt.mpr (by rw [value]; exact small)
  have same : Char.ofNat c.val.toUInt8.toNat = c := by
    rw [value]
    exact Char.ofNat_toNat c
  have read : utf8LossyChar c.val.toUInt8 rest = (c, 0) := by
    unfold utf8LossyChar
    rw [if_pos first, same]
  rw [fromUtf8Lossy, read]
  rfl

/-- `char::is_whitespace`. -/
def isRustWhitespace (c : Char) : Bool :=
  let n := c.toNat
  (9 ≤ n && n ≤ 13) || n == 0x20 || n == 0x85 || n == 0xA0 || n == 0x1680 ||
    (0x2000 ≤ n && n ≤ 0x200A) || n == 0x2028 || n == 0x2029 || n == 0x202F || n == 0x205F ||
    n == 0x3000

/-- `str::trim`. -/
def rustTrim (text : String) : String :=
  String.ofList
    ((text.toList.dropWhile isRustWhitespace).reverse.dropWhile isRustWhitespace).reverse

/-- `str::trim`. -/
def trimText (text : List Char) : List Char :=
  (text.dropWhile isRustWhitespace).rdropWhile isRustWhitespace

theorem trimText_idem (text : List Char) : trimText (trimText text) = trimText text := by
  unfold trimText
  have head : ((text.dropWhile isRustWhitespace).rdropWhile isRustWhitespace).dropWhile
      isRustWhitespace = (text.dropWhile isRustWhitespace).rdropWhile isRustWhitespace := by
    have part := List.rdropWhile_prefix isRustWhitespace (l := text.dropWhile isRustWhitespace)
    cases kept : (text.dropWhile isRustWhitespace).rdropWhile isRustWhitespace with
    | nil => rfl
    | cons first rest =>
      rw [kept] at part
      obtain ⟨tail, whole⟩ := part
      have bare : ¬ isRustWhitespace first = true := by
        have start := head?_dropWhile_not isRustWhitespace text
        rw [← whole] at start
        simpa using start
      exact dropWhile_cons_of_neg bare
  rw [head, rdropWhile_idempotent]

theorem rustTrim_idem (text : String) : rustTrim (rustTrim text) = rustTrim text := by
  have trimmed : ∀ text : String, rustTrim text = String.ofList (trimText text.toList) := fun _ => rfl
  rw [trimmed, trimmed, String.toList_ofList, trimText_idem]

/-- `str::len`, for a list of characters. -/
def utf8Length (text : List Char) : Nat := (text.map Char.utf8Size).sum

theorem utf8Length_append (first second : List Char) :
    utf8Length (first ++ second) = utf8Length first + utf8Length second := by
  simp [utf8Length]

theorem utf8Length_ascii {text : List Char} (ascii : ∀ c ∈ text, c.utf8Size = 1) :
    utf8Length text = text.length := by
  induction text with
  | nil => rfl
  | cons c text ih =>
    obtain ⟨first, others⟩ := forall_mem_cons.mp ascii
    have rest := ih others
    unfold utf8Length at rest ⊢
    rw [map_cons, sum_cons, first, rest, length_cons, Nat.add_comm]

/-- `char::is_control`. -/
def isRustControl (c : Char) : Bool :=
  c.val ≤ 0x1F || (0x7F ≤ c.val && c.val ≤ 0x9F)

def byteLength (text : String) : Nat := (utf8Bytes text).length

theorem byteLength_append (xs ys : String) : byteLength (xs ++ ys) = byteLength xs + byteLength ys := by
  rw [byteLength, utf8Bytes_append, length_append, byteLength, byteLength]

/-- The test of `record_prepared_event`, `validate_mcp_session_id`, `validate_mcp_operation_id` and the
client ids. -/
def printableId (id : String) (limit : Nat) : Bool :=
  !(id.isEmpty || byteLength id > limit || id.toList.any isRustControl)

/-- `split_whitespace().next()`. -/
def firstWord (text : List Char) : Option (List Char) :=
  match (text.dropWhile isRustWhitespace).takeWhile fun c => !isRustWhitespace c with
  | [] => none
  | word => some word

def withoutPlus : List Char → List Char
  | '+' :: rest => rest
  | text => text

/-- `parse::<usize>()`. -/
def parseUsize (text : List Char) : Option Nat :=
  let digits := withoutPlus text
  if digits ≠ [] ∧ digits.all isDigit ∧ ofDigitChars 10 digits 0 < 2 ^ 64 then
    some (ofDigitChars 10 digits 0)
  else none

theorem digit_not_whitespace {c : Char} (digit : c.isDigit = true) :
    isRustWhitespace c = false := by
  simp only [isDigit, and_eq_true, decide_eq_true_eq] at digit
  have low : 48 ≤ c.toNat := UInt32.le_iff_toNat_le.mp digit.1
  have high : c.toNat ≤ 57 := UInt32.le_iff_toNat_le.mp digit.2
  simp only [isRustWhitespace, or_eq_false_iff, and_eq_false_iff, decide_eq_false_iff_not,
    beq_eq_false_iff_ne]
  omega

theorem alphanum_bounds {c : Char} (alphanum : c.isAlphanum = true) :
    48 ≤ c.toNat ∧ c.toNat ≤ 122 := by
  delta isAlphanum isAlpha isUpper isLower isDigit at alphanum
  simp only [or_eq_true, and_eq_true, decide_eq_true_eq, UInt32.le_iff_toNat_le,
    ge_iff_le] at alphanum
  have value : c.val.toNat = c.toNat := rfl
  simp only [value] at alphanum
  simp at alphanum
  omega

theorem toDigits_isDigit {n : Nat} {c : Char} (mem : c ∈ toDigits 10 n) :
    c.isDigit = true :=
  isDigit_of_mem_toDigits (by decide) (by decide) mem

theorem parseUsize_toDigits {n : Nat} (bound : n < 2 ^ 64) :
    parseUsize (toDigits 10 n) = some n := by
  have digits : (toDigits 10 n).all isDigit = true :=
    all_eq_true.mpr fun c mem => toDigits_isDigit mem
  have unsigned : withoutPlus (toDigits 10 n) = toDigits 10 n := by
    unfold withoutPlus
    split
    next rest split =>
      have plus : ('+' : Char).isDigit = true := toDigits_isDigit (n := n) (by simp [split])
      exact absurd plus (by decide)
    next => rfl
  simp only [parseUsize, unsigned, digits, ofDigitChars_ten_toDigits]
  exact if_pos ⟨toDigits_ne_nil, trivial, bound⟩

theorem firstWord_digits {n : Nat} {rest : List Char} :
    firstWord (toDigits 10 n ++ ' ' :: rest) = some (toDigits 10 n) := by
  have solid : ∀ c ∈ toDigits 10 n, isRustWhitespace c = false :=
    fun c mem => digit_not_whitespace (toDigits_isDigit mem)
  have kept : (toDigits 10 n ++ ' ' :: rest).dropWhile isRustWhitespace =
      toDigits 10 n ++ ' ' :: rest := by
    cases split : toDigits 10 n with
    | nil => exact absurd split toDigits_ne_nil
    | cons c digits =>
      have first : isRustWhitespace c = false := solid c (by simp [split])
      simp [first]
  have word : (toDigits 10 n ++ ' ' :: rest).takeWhile (fun c => !isRustWhitespace c) =
      toDigits 10 n := by
    rw [takeWhile_append_of_pos (fun c mem => by simp [solid c mem])]
    simp [show isRustWhitespace ' ' = true from rfl]
  rw [firstWord, kept, word]
  split
  next empty => exact absurd empty toDigits_ne_nil
  next => rfl

def hexDigit? (c : Char) : Option Nat :=
  if '0' ≤ c && c ≤ '9' then some (c.toNat - '0'.toNat)
  else if 'a' ≤ c && c ≤ 'f' then some (c.toNat - 'a'.toNat + 10)
  else if 'A' ≤ c && c ≤ 'F' then some (c.toNat - 'A'.toNat + 10)
  else none

end PortMate
