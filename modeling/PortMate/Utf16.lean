import PortMate.RustText

namespace PortMate

open List

def isHighSurrogate (unit : UInt16) : Bool := 0xD800 ≤ unit.toNat && unit.toNat ≤ 0xDBFF

def isLowSurrogate (unit : UInt16) : Bool := 0xDC00 ≤ unit.toNat && unit.toNat ≤ 0xDFFF

/-- A unit that stands alone; half of a pair becomes the replacement character. -/
def scalarOfUnit (unit : UInt16) : Char :=
  if isHighSurrogate unit || isLowSurrogate unit then Char.ofNat 0xFFFD else Char.ofNat unit.toNat

def scalarOfPair (high low : UInt16) : Char :=
  Char.ofNat (0x10000 + (high.toNat - 0xD800) * 0x400 + (low.toNat - 0xDC00))

def decodeUtf16 : List UInt16 → List Char
  | [] => []
  | [unit] => [scalarOfUnit unit]
  | unit :: next :: rest =>
    if isHighSurrogate unit && isLowSurrogate next then scalarOfPair unit next :: decodeUtf16 rest
    else scalarOfUnit unit :: decodeUtf16 (next :: rest)

def utf16Units (c : Char) : List UInt16 :=
  if c.toNat < 0x10000 then [UInt16.ofNat c.toNat]
  else
    [UInt16.ofNat (0xD800 + (c.toNat - 0x10000) / 0x400),
      UInt16.ofNat (0xDC00 + (c.toNat - 0x10000) % 0x400)]

def encodeUtf16 (text : List Char) : List UInt16 := text.flatMap utf16Units

/-- The characters that `trim` removes and that `\s` matches. -/
def isJsSpace (c : Char) : Bool :=
  (0x9 ≤ c.toNat && c.toNat ≤ 0xd) || c.toNat = 0x20 || c.toNat = 0xa0 || c.toNat = 0x1680 ||
    (0x2000 ≤ c.toNat && c.toNat ≤ 0x200a) || c.toNat = 0x2028 || c.toNat = 0x2029 ||
    c.toNat = 0x202f || c.toNat = 0x205f || c.toNat = 0x3000 || c.toNat = 0xfeff

def jsTrim (text : List Char) : List Char := (text.dropWhile isJsSpace).rdropWhile isJsSpace

/-- `length`, in units of UTF-16. -/
def jsLength (text : List Char) : Nat := (text.map fun c => if c.toNat < 0x10000 then 1 else 2).sum

theorem utf8Size_ofNat_le {n : Nat} (basic : n ≤ 0xFFFF) : (Char.ofNat n).utf8Size ≤ 3 := by
  have bound : (Char.ofNat n).toNat ≤ 0xFFFF := by
    by_cases valid : n.isValidChar
    · rw [Char.ofNat, dif_pos valid]
      exact basic
    · rw [Char.ofNat, dif_neg valid]
      decide
  have small : (Char.ofNat n).val ≤ 0xFFFF := UInt32.le_iff_toNat_le.mpr bound
  unfold Char.utf8Size
  dsimp only
  split
  · decide
  · split
    · decide
    · split
      · decide
      next large => exact absurd small large

theorem scalarOfUnit_size (unit : UInt16) : (scalarOfUnit unit).utf8Size ≤ 3 := by
  unfold scalarOfUnit
  split
  · exact utf8Size_ofNat_le (by decide)
  · exact utf8Size_ofNat_le (Nat.le_of_lt_succ unit.toNat_lt)

theorem decodeUtf16_bytes (units : List UInt16) : utf8Length (decodeUtf16 units) ≤ 3 * units.length := by
  induction units using decodeUtf16.induct with
  | case1 => exact Nat.zero_le _
  | case2 unit =>
    have size := scalarOfUnit_size unit
    simpa [decodeUtf16, utf8Length] using size
  | case3 unit next rest pair ih =>
    have size := (scalarOfPair unit next).utf8Size_le_four
    simp only [decodeUtf16, pair, if_true, utf8Length, map_cons, sum_cons,
      length_cons] at ih ⊢
    omega
  | case4 unit next rest pair ih =>
    have size := scalarOfUnit_size unit
    simp only [decodeUtf16, pair, utf8Length, length_cons] at ih ⊢
    simp only [Bool.false_eq_true, if_false, map_cons, sum_cons]
    omega

theorem utf8ByteSize_ofList (text : List Char) :
    (String.ofList text).utf8ByteSize = utf8Length text := by
  induction text with
  | nil => rfl
  | cons first rest ih =>
    rw [← singleton_append, String.ofList_append, String.utf8ByteSize_append, ih,
      ← String.singleton_eq_ofList, String.utf8ByteSize_singleton]
    simp [utf8Length]

theorem decodeUtf16_units (c : Char) (rest : List UInt16) :
    decodeUtf16 (utf16Units c ++ rest) = c :: decodeUtf16 rest := by
  have whole : Char.ofNat c.toNat = c := Char.ofNat_toNat c
  have scalar : c.toNat < 0xD800 ∨ 0xDFFF < c.toNat ∧ c.toNat < 0x110000 := c.valid
  unfold utf16Units
  split
  next basic =>
    have unit : (UInt16.ofNat c.toNat).toNat = c.toNat := by
      rw [UInt16.toNat_ofNat']
      exact Nat.mod_eq_of_lt basic
    have high : isHighSurrogate (UInt16.ofNat c.toNat) = false := by
      unfold isHighSurrogate
      rw [unit]
      simp
      omega
    have low : isLowSurrogate (UInt16.ofNat c.toNat) = false := by
      unfold isLowSurrogate
      rw [unit]
      simp
      omega
    have alone : scalarOfUnit (UInt16.ofNat c.toNat) = c := by
      unfold scalarOfUnit
      rw [high, low, unit, whole]
      rfl
    cases rest with
    | nil =>
      exact congrArg (fun scalar => [scalar]) alone
    | cons next rest =>
      rw [singleton_append, decodeUtf16, high, alone]
      rfl
  next wide =>
    have first : (UInt16.ofNat (0xD800 + (c.toNat - 0x10000) / 0x400)).toNat =
        0xD800 + (c.toNat - 0x10000) / 0x400 := by
      rw [UInt16.toNat_ofNat']
      exact Nat.mod_eq_of_lt (by omega)
    have second : (UInt16.ofNat (0xDC00 + (c.toNat - 0x10000) % 0x400)).toNat =
        0xDC00 + (c.toNat - 0x10000) % 0x400 := by
      rw [UInt16.toNat_ofNat']
      exact Nat.mod_eq_of_lt (by omega)
    have high : isHighSurrogate (UInt16.ofNat (0xD800 + (c.toNat - 0x10000) / 0x400)) = true := by
      unfold isHighSurrogate
      rw [first]
      simp
      omega
    have low : isLowSurrogate (UInt16.ofNat (0xDC00 + (c.toNat - 0x10000) % 0x400)) = true := by
      unfold isLowSurrogate
      rw [second]
      simp
      omega
    have pair : scalarOfPair (UInt16.ofNat (0xD800 + (c.toNat - 0x10000) / 0x400))
        (UInt16.ofNat (0xDC00 + (c.toNat - 0x10000) % 0x400)) = c := by
      unfold scalarOfPair
      rw [first, second]
      have sum : 0x10000 + (0xD800 + (c.toNat - 0x10000) / 0x400 - 0xD800) * 0x400 +
          (0xDC00 + (c.toNat - 0x10000) % 0x400 - 0xDC00) = c.toNat := by omega
      rw [sum, whole]
    rw [cons_append, singleton_append, decodeUtf16, high, low, pair]
    rfl

theorem decodeUtf16_encode (text : List Char) (rest : List UInt16) :
    decodeUtf16 (encodeUtf16 text ++ rest) = text ++ decodeUtf16 rest := by
  induction text with
  | nil => rfl
  | cons c text ih =>
    have next : encodeUtf16 (c :: text) = utf16Units c ++ encodeUtf16 text := flatMap_cons
    rw [next, append_assoc, decodeUtf16_units, ih]
    rfl

theorem encodeUtf16_prefix {start text : List Char} :
    encodeUtf16 start <+: encodeUtf16 text ↔ start <+: text := by
  constructor
  · rintro ⟨rest, same⟩
    refine ⟨decodeUtf16 rest, ?_⟩
    have whole := decodeUtf16_encode text []
    rw [append_nil, ← same, decodeUtf16_encode] at whole
    rw [whole, decodeUtf16, append_nil]
  · rintro ⟨rest, rfl⟩
    exact ⟨encodeUtf16 rest, flatMap_append.symm⟩

end PortMate
