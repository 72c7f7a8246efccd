import PortMate.RustText

namespace PortMate

open List

def byteOf (c : Char) : UInt8 := c.val.toUInt8

def isAsciiAlphanumeric (byte : UInt8) : Bool :=
  (48 ≤ byte && byte ≤ 57) || (65 ≤ byte && byte ≤ 90) || (97 ≤ byte && byte ≤ 122)

variable (text : String)

/-- What stands at the start of a byte string, with the number of bytes behind the first that it
takes: a character, a maximal broken sequence, or one that the end of the bytes cuts off. -/
inductive Utf8Start
  | char (c : Char) (more : Nat)
  | broken (more : Nat)
  | cut
  deriving DecidableEq

def utf8Start (first : UInt8) (rest : List UInt8) : Utf8Start :=
  if first < 0x80 then .char (Char.ofNat first.toNat) 0
  else if 0xC2 ≤ first ∧ first ≤ 0xDF then
    match rest with
    | [] => .cut
    | second :: _ =>
      if isContinuation second then
        .char (Char.ofNat (first.toNat % 32 * 64 + second.toNat % 64)) 1
      else .broken 0
  else if 0xE0 ≤ first ∧ first ≤ 0xEF then
    match rest with
    | [] => .cut
    | [second] => if isSecondByte first second then .cut else .broken 0
    | second :: third :: _ =>
      if !isSecondByte first second then .broken 0
      else if isContinuation third then
        .char (Char.ofNat (first.toNat % 16 * 4096 + second.toNat % 64 * 64 + third.toNat % 64)) 2
      else .broken 1
  else if 0xF0 ≤ first ∧ first ≤ 0xF4 then
    match rest with
    | [] => .cut
    | [second] => if isSecondByte first second then .cut else .broken 0
    | [second, third] =>
      if !isSecondByte first second then .broken 0
      else if isContinuation third then .cut
      else .broken 1
    | second :: third :: fourth :: _ =>
      if !isSecondByte first second then .broken 0
      else if !isContinuation third then .broken 1
      else if isContinuation fourth then
        .char (Char.ofNat (first.toNat % 8 * 262144 + second.toNat % 64 * 4096 +
          third.toNat % 64 * 64 + fourth.toNat % 64)) 3
      else .broken 2
  else .broken 0

variable {first : UInt8} {rest : List UInt8}

theorem utf8Start_append (whole : utf8Start first rest ≠ .cut) (more : List UInt8) :
    utf8Start first (rest ++ more) = utf8Start first rest := by
  unfold utf8Start at whole ⊢
  split
  next => rfl
  next one =>
    rw [if_neg one] at whole
    split
    next two =>
      rw [if_pos two] at whole
      cases rest with
      | nil => exact absurd rfl whole
      | cons second rest => rfl
    next two =>
      rw [if_neg two] at whole
      split
      next three =>
        rw [if_pos three] at whole
        match rest, whole with
        | [], whole => exact absurd rfl whole
        | [second], whole =>
          cases more with
          | nil => rfl
          | cons third more =>
            cases follows : isSecondByte first second with
            | true => exact absurd (if_pos follows) whole
            | false =>
              dsimp only [cons_append, nil_append]
              rw [follows]
              rfl
        | second :: third :: rest, _ => rfl
      next three =>
        rw [if_neg three] at whole
        split
        next four =>
          rw [if_pos four] at whole
          match rest, whole with
          | [], whole => exact absurd rfl whole
          | [second], whole =>
            cases follows : isSecondByte first second with
            | true => exact absurd (if_pos follows) whole
            | false =>
              match more with
              | [] => rfl
              | [third] =>
                dsimp only [cons_append, nil_append]
                rw [follows]
                rfl
              | third :: fourth :: more =>
                dsimp only [cons_append, nil_append]
                rw [follows]
                rfl
          | [second, third], whole =>
            cases more with
            | nil => rfl
            | cons fourth more =>
              cases follows : isSecondByte first second with
              | false =>
                dsimp only [cons_append, nil_append]
                rw [follows]
                rfl
              | true =>
                cases continues : isContinuation third with
                | true =>
                  dsimp only at whole
                  rw [follows, continues] at whole
                  exact absurd rfl whole
                | false =>
                  dsimp only [cons_append, nil_append]
                  rw [follows, continues]
                  rfl
          | second :: third :: fourth :: rest, _ => rfl
        next => rfl

/-- What is taken is there, and what is cut off is short. -/
def Utf8Start.Fits (length : Nat) : Utf8Start → Prop
  | .char _ more => more ≤ length
  | .broken more => more ≤ length
  | .cut => length ≤ 2

theorem utf8Start_fits (first : UInt8) (rest : List UInt8) :
    (utf8Start first rest).Fits rest.length := by
  unfold utf8Start
  split
  · exact Nat.zero_le _
  · split
    · match rest with
      | [] => exact Nat.zero_le _
      | second :: rest =>
        dsimp only
        split
        · exact Nat.le_add_left 1 _
        · exact Nat.zero_le _
    · split
      · match rest with
        | [] => exact Nat.zero_le _
        | [second] =>
          dsimp only
          split
          · exact Nat.le_succ 1
          · exact Nat.zero_le _
        | second :: third :: rest =>
          dsimp only
          split
          · exact Nat.zero_le _
          · split
            · exact Nat.le_add_left 2 _
            · exact Nat.le_add_left 1 _
      · split
        · match rest with
          | [] => exact Nat.zero_le _
          | [second] =>
            dsimp only
            split
            · exact Nat.le_succ 1
            · exact Nat.zero_le _
          | [second, third] =>
            dsimp only
            split
            · exact Nat.zero_le _
            · split
              · exact Nat.le_refl 2
              · exact Nat.le_add_left 1 _
          | second :: third :: fourth :: rest =>
            dsimp only
            split
            · exact Nat.zero_le _
            · split
              · exact Nat.le_add_left 1 _
              · split
                · exact Nat.le_add_left 3 _
                · exact Nat.le_add_left 2 _
        · exact Nat.zero_le _

variable {c : Char} {more : Nat}

theorem char_fits (start : utf8Start first rest = .char c more) : more ≤ rest.length := by
  have fits := utf8Start_fits first rest
  rwa [start] at fits

theorem broken_fits (start : utf8Start first rest = .broken more) : more ≤ rest.length := by
  have fits := utf8Start_fits first rest
  rwa [start] at fits

theorem cut_short (start : utf8Start first rest = .cut) : rest.length ≤ 2 := by
  have fits := utf8Start_fits first rest
  rwa [start] at fits

theorem utf8LossyChar_eq (first : UInt8) (rest : List UInt8) :
    utf8LossyChar first rest =
      match utf8Start first rest with
      | .char c more => (c, more)
      | .broken more => (replacementChar, more)
      | .cut => (replacementChar, rest.length) := by
  unfold utf8LossyChar utf8Start
  split
  · rfl
  · split
    · cases rest with
      | nil => rfl
      | cons second rest => dsimp only; split <;> rfl
    · split
      · match rest with
        | [] => rfl
        | [second] => dsimp only; split <;> rfl
        | second :: third :: rest =>
          dsimp only
          split
          · rfl
          · split <;> rfl
      · split
        · match rest with
          | [] => rfl
          | [second] => dsimp only; split <;> rfl
          | [second, third] =>
            dsimp only
            split
            · rfl
            · split <;> rfl
          | second :: third :: fourth :: rest =>
            dsimp only
            split
            · rfl
            · split
              · rfl
              · split <;> rfl
        · rfl

/-- `str::from_utf8`: bytes that a text gives back. -/
def fromUtf8 (bytes : List UInt8) : Option (List Char) :=
  let text := fromUtf8Lossy bytes
  if text.flatMap String.utf8EncodeChar = bytes then some text else none

theorem fromUtf8Lossy_char (start : utf8Start first rest = .char c more) :
    fromUtf8Lossy (first :: rest) = c :: fromUtf8Lossy (rest.drop more) := by
  rw [fromUtf8Lossy, utf8LossyChar_eq, start]

theorem fromUtf8Lossy_broken (start : utf8Start first rest = .broken more) :
    fromUtf8Lossy (first :: rest) = replacementChar :: fromUtf8Lossy (rest.drop more) := by
  rw [fromUtf8Lossy, utf8LossyChar_eq, start]

/-- What `str::from_utf8` says of bytes that are not UTF-8: how many are, and how long the broken
sequence behind them is, where it is not cut off by the end. -/
structure Utf8Error where
  validUpTo : Nat
  errorLen : Option Nat
  deriving DecidableEq

/-- `str::from_utf8`, with what its error says. -/
def fromUtf8Checked : List UInt8 → Except Utf8Error (List Char)
  | [] => .ok []
  | first :: rest =>
    match utf8Start first rest with
    | .char c more =>
      match fromUtf8Checked (rest.drop more) with
      | .ok text => .ok (c :: text)
      | .error error => .error { error with validUpTo := error.validUpTo + more + 1 }
    | .broken more => .error ⟨0, some (more + 1)⟩
    | .cut => .error ⟨0, none⟩
termination_by bytes => bytes.length
decreasing_by simp only [length_drop, length_cons]; omega

theorem fromUtf8Checked_char (start : utf8Start first rest = .char c more) :
    fromUtf8Checked (first :: rest) =
      match fromUtf8Checked (rest.drop more) with
      | .ok text => .ok (c :: text)
      | .error error => .error { error with validUpTo := error.validUpTo + more + 1 } := by
  rw [fromUtf8Checked, start]

theorem uint8_toNat {n : Nat} (small : n < 256) : (UInt8.ofNat n).toNat = n := by
  rw [UInt8.toNat_ofNat']
  omega

theorem uint8_le_iff {a b : UInt8} : a ≤ b ↔ a.toNat ≤ b.toNat := UInt8.le_iff_toNat_le

theorem utf8EncodeChar_bytes {byte : UInt8} (mem : byte ∈ String.utf8EncodeChar c) :
    byte.toNat < 128 ∧ c.val.toNat = byte.toNat ∨ 128 ≤ byte.toNat ∧ byte.toNat < 248 := by
  unfold String.utf8EncodeChar at mem
  generalize c.val.toNat = v at mem ⊢
  dsimp only at mem
  split at mem
  next one =>
    rw [mem_singleton.mp mem, uint8_toNat (by omega)]
    omega
  next one =>
    split at mem
    next two =>
      simp only [mem_cons, not_mem_nil, or_false] at mem
      obtain rfl | rfl := mem <;> rw [uint8_toNat (by omega)] <;> omega
    next two =>
      split at mem
      next three =>
        simp only [mem_cons, not_mem_nil, or_false] at mem
        obtain rfl | rfl | rfl := mem <;> rw [uint8_toNat (by omega)] <;> omega
      next three =>
        simp only [mem_cons, not_mem_nil, or_false] at mem
        obtain rfl | rfl | rfl | rfl := mem <;> rw [uint8_toNat (by omega)] <;> omega

theorem isContinuation_tail (v : Nat) : isContinuation (UInt8.ofNat (v % 64 + 128)) = true := by
  have value : (UInt8.ofNat (v % 64 + 128)).toNat = v % 64 + 128 := uint8_toNat (by omega)
  simp only [isContinuation, Bool.and_eq_true, decide_eq_true_eq, uint8_le_iff, value]
  exact ⟨by show 128 ≤ _; omega, by show _ ≤ 191; omega⟩

theorem isSecondByte_iff {first second : UInt8} : isSecondByte first second = true ↔
    (128 ≤ second.toNat ∧ second.toNat ≤ 191) ∧ (first.toNat = 0xE0 → 160 ≤ second.toNat) ∧
      (first.toNat = 0xED → second.toNat ≤ 159) ∧ (first.toNat = 0xF0 → 144 ≤ second.toNat) ∧
      (first.toNat = 0xF4 → second.toNat ≤ 143) := by
  have same : ∀ byte : UInt8, first = byte ↔ first.toNat = byte.toNat :=
    fun byte => UInt8.toNat_inj.symm
  unfold isSecondByte isContinuation
  simp only [same]
  have values : (0xE0 : UInt8).toNat = 0xE0 ∧ (0xED : UInt8).toNat = 0xED ∧
      (0xF0 : UInt8).toNat = 0xF0 ∧ (0xF4 : UInt8).toNat = 0xF4 := by decide
  rw [values.1, values.2.1, values.2.2.1, values.2.2.2]
  split
  next first =>
    simp only [Bool.and_eq_true, decide_eq_true_eq, uint8_le_iff]
    show 160 ≤ _ ∧ _ ≤ 191 ↔ _
    omega
  next =>
    split
    next first =>
      simp only [Bool.and_eq_true, decide_eq_true_eq, uint8_le_iff]
      show 128 ≤ _ ∧ _ ≤ 159 ↔ _
      omega
    next =>
      split
      next first =>
        simp only [Bool.and_eq_true, decide_eq_true_eq, uint8_le_iff]
        show 144 ≤ _ ∧ _ ≤ 191 ↔ _
        omega
      next =>
        split
        next first =>
          simp only [Bool.and_eq_true, decide_eq_true_eq, uint8_le_iff]
          show 128 ≤ _ ∧ _ ≤ 143 ↔ _
          omega
        next =>
          simp only [Bool.and_eq_true, decide_eq_true_eq, uint8_le_iff]
          show 128 ≤ _ ∧ _ ≤ 191 ↔ _
          omega

theorem char_scalar (c : Char) :
    c.val.toNat < 0xD800 ∨ 0xDFFF < c.val.toNat ∧ c.val.toNat < 0x110000 := by
  obtain low | ⟨high, below⟩ := c.valid
  · exact .inl low
  · exact .inr ⟨high, below⟩

theorem utf8Start_two {v : Nat} (low : 0x7f < v) (high : v ≤ 0x7ff) :
    utf8Start (UInt8.ofNat (v / 64 % 32 + 192)) [UInt8.ofNat (v % 64 + 128)] =
      .char (Char.ofNat v) 1 := by
  have head : (UInt8.ofNat (v / 64 % 32 + 192)).toNat = v / 64 + 192 := by
    rw [uint8_toNat (by omega)]
    omega
  have tail : (UInt8.ofNat (v % 64 + 128)).toNat = v % 64 + 128 := uint8_toNat (by omega)
  unfold utf8Start
  rw [if_neg (by rw [UInt8.lt_iff_toNat_lt, head]; show ¬ _ < 128; omega),
    if_pos (by
      rw [uint8_le_iff, uint8_le_iff, head]
      exact ⟨by show 194 ≤ _; omega, by show _ ≤ 223; omega⟩)]
  dsimp only
  rw [if_pos (isContinuation_tail v), head, tail]
  have number : (v / 64 + 192) % 32 * 64 + (v % 64 + 128) % 64 = v := by omega
  rw [number]

theorem utf8Start_three {v : Nat} (low : 0x7ff < v) (high : v ≤ 0xffff)
    (scalar : v < 0xD800 ∨ 0xDFFF < v) :
    utf8Start (UInt8.ofNat (v / 4096 % 16 + 224))
      [UInt8.ofNat (v / 64 % 64 + 128), UInt8.ofNat (v % 64 + 128)] = .char (Char.ofNat v) 2 := by
  have head : (UInt8.ofNat (v / 4096 % 16 + 224)).toNat = v / 4096 + 224 := by
    rw [uint8_toNat (by omega)]
    omega
  have second : (UInt8.ofNat (v / 64 % 64 + 128)).toNat = v / 64 % 64 + 128 :=
    uint8_toNat (by omega)
  have tail : (UInt8.ofNat (v % 64 + 128)).toNat = v % 64 + 128 := uint8_toNat (by omega)
  have follows : isSecondByte (UInt8.ofNat (v / 4096 % 16 + 224))
      (UInt8.ofNat (v / 64 % 64 + 128)) = true := by
    rw [isSecondByte_iff, head, second]
    omega
  unfold utf8Start
  rw [if_neg (by rw [UInt8.lt_iff_toNat_lt, head]; show ¬ _ < 128; omega),
    if_neg (by
      rw [uint8_le_iff, uint8_le_iff, head]
      show ¬ (194 ≤ _ ∧ _ ≤ 223)
      omega),
    if_pos (by
      rw [uint8_le_iff, uint8_le_iff, head]
      show 224 ≤ _ ∧ _ ≤ 239
      omega)]
  dsimp only
  rw [follows, Bool.not_true, if_neg Bool.false_ne_true, if_pos (isContinuation_tail v), head,
    second, tail]
  have number : (v / 4096 + 224) % 16 * 4096 + (v / 64 % 64 + 128) % 64 * 64 +
      (v % 64 + 128) % 64 = v := by omega
  rw [number]

theorem utf8Start_four {v : Nat} (low : 0xffff < v) (high : v < 0x110000) :
    utf8Start (UInt8.ofNat (v / 262144 % 8 + 240))
      [UInt8.ofNat (v / 4096 % 64 + 128), UInt8.ofNat (v / 64 % 64 + 128),
        UInt8.ofNat (v % 64 + 128)] = .char (Char.ofNat v) 3 := by
  have head : (UInt8.ofNat (v / 262144 % 8 + 240)).toNat = v / 262144 + 240 := by
    rw [uint8_toNat (by omega)]
    omega
  have second : (UInt8.ofNat (v / 4096 % 64 + 128)).toNat = v / 4096 % 64 + 128 :=
    uint8_toNat (by omega)
  have third : (UInt8.ofNat (v / 64 % 64 + 128)).toNat = v / 64 % 64 + 128 :=
    uint8_toNat (by omega)
  have tail : (UInt8.ofNat (v % 64 + 128)).toNat = v % 64 + 128 := uint8_toNat (by omega)
  have follows : isSecondByte (UInt8.ofNat (v / 262144 % 8 + 240))
      (UInt8.ofNat (v / 4096 % 64 + 128)) = true := by
    rw [isSecondByte_iff, head, second]
    omega
  unfold utf8Start
  rw [if_neg (by rw [UInt8.lt_iff_toNat_lt, head]; show ¬ _ < 128; omega),
    if_neg (by
      rw [uint8_le_iff, uint8_le_iff, head]
      show ¬ (194 ≤ _ ∧ _ ≤ 223)
      omega),
    if_neg (by
      rw [uint8_le_iff, uint8_le_iff, head]
      show ¬ (224 ≤ _ ∧ _ ≤ 239)
      omega),
    if_pos (by
      rw [uint8_le_iff, uint8_le_iff, head]
      show 240 ≤ _ ∧ _ ≤ 244
      omega)]
  dsimp only
  rw [follows, Bool.not_true, if_neg Bool.false_ne_true, isContinuation_tail (v / 64),
    Bool.not_true, if_neg Bool.false_ne_true, if_pos (isContinuation_tail v), head, second,
    third, tail]
  have number : (v / 262144 + 240) % 8 * 262144 + (v / 4096 % 64 + 128) % 64 * 4096 +
      (v / 64 % 64 + 128) % 64 * 64 + (v % 64 + 128) % 64 = v := by omega
  rw [number]

theorem utf8Start_encode (c : Char) : ∃ first rest, String.utf8EncodeChar c = first :: rest ∧
    utf8Start first rest = .char c rest.length := by
  have scalar := char_scalar c
  have back : Char.ofNat c.val.toNat = c := Char.ofNat_toNat c
  unfold String.utf8EncodeChar
  generalize c.val.toNat = v at scalar back ⊢
  subst back
  dsimp only
  split
  next one =>
    refine ⟨_, _, rfl, ?_⟩
    have value : (UInt8.ofNat v).toNat = v := uint8_toNat (by omega)
    unfold utf8Start
    rw [if_pos (UInt8.lt_iff_toNat_lt.mpr (by rw [value]; show v < 128; omega)), value]
    rfl
  next one =>
    split
    next two => exact ⟨_, _, rfl, utf8Start_two (by omega) two⟩
    next two =>
      split
      next three => exact ⟨_, _, rfl, utf8Start_three (by omega) three (by omega)⟩
      next three => exact ⟨_, _, rfl, utf8Start_four (by omega) (by omega)⟩

theorem utf8Start_encoded (encoded : String.utf8EncodeChar c = first :: rest) (more : List UInt8) :
    utf8Start first (rest ++ more) = .char c rest.length := by
  obtain ⟨first', rest', encoded', start⟩ := utf8Start_encode c
  obtain ⟨rfl, rfl⟩ := List.cons.inj (encoded.symm.trans encoded')
  rw [utf8Start_append (by rw [start]; exact nofun), start]

theorem encoded_start {pattern text : List Char}
    (start : pattern.flatMap String.utf8EncodeChar <+: text.flatMap String.utf8EncodeChar) :
    pattern <+: text := by
  induction pattern generalizing text with
  | nil => exact nil_prefix
  | cons c pattern ih =>
    obtain ⟨first, rest, encoded, -⟩ := utf8Start_encode c
    obtain ⟨more, same⟩ := start
    cases text with
    | nil => simp [encoded] at same
    | cons d text =>
      obtain ⟨first', rest', encoded', -⟩ := utf8Start_encode d
      rw [flatMap_cons, flatMap_cons, encoded, encoded', append_assoc,
        cons_append, cons_append] at same
      obtain ⟨rfl, behind⟩ := List.cons.inj same
      have read := utf8Start_encoded encoded (pattern.flatMap String.utf8EncodeChar ++ more)
      rw [behind, utf8Start_encoded encoded'] at read
      obtain ⟨rfl, -⟩ := Utf8Start.char.inj read
      obtain rfl := (List.cons.inj (encoded.symm.trans encoded')).2
      exact cons_prefix_cons.mpr ⟨rfl, ih ⟨more, append_cancel_left behind⟩⟩

theorem encoded_infix {pattern text : List Char} (ascii : c.val ≤ 0x7f)
    (inside : (c :: pattern).flatMap String.utf8EncodeChar <:+: text.flatMap String.utf8EncodeChar) :
    c :: pattern <:+: text := by
  induction text with
  | nil =>
    rw [flatMap_nil, infix_nil, flatMap_cons, utf8EncodeChar_ascii ascii] at inside
    exact absurd inside (cons_ne_nil _ _)
  | cons d text ih =>
    obtain ⟨before, after, same⟩ := inside
    rw [flatMap_cons (x := d), append_assoc] at same
    obtain ⟨inner, encoded, here⟩ | ⟨skipped, -, behind⟩ := append_eq_append_iff.mp same
    · cases before with
      | nil =>
        obtain rfl : inner = String.utf8EncodeChar d := encoded.symm
        exact (encoded_start ⟨after, by rw [flatMap_cons (x := d), here]⟩).isInfix
      | cons byte before =>
        cases inner with
        | nil => exact (ih ⟨[], after, here⟩).trans (suffix_cons d text).isInfix
        | cons inner more =>
          -- The byte of an ASCII character is not one of several bytes of a character.
          rw [flatMap_cons, utf8EncodeChar_ascii ascii] at here
          obtain ⟨rfl, -⟩ := List.cons.inj here
          have bounds : c.val.toUInt8.toNat = c.val.toNat := by
            have := UInt32.le_iff_toNat_le.mp ascii
            rw [UInt32.toNat_toUInt8]
            exact Nat.mod_eq_of_lt (Nat.lt_of_le_of_lt this (by decide))
          have small : c.val.toNat ≤ 127 := UInt32.le_iff_toNat_le.mp ascii
          have member : c.val.toUInt8 ∈ String.utf8EncodeChar d := by
            rw [encoded]
            exact mem_append_right _ mem_cons_self
          have single : d.val ≤ 0x7f := by
            have := utf8EncodeChar_bytes member
            exact UInt32.le_iff_toNat_le.mpr (by change d.val.toNat ≤ 127; omega)
          have long := congrArg List.length encoded
          rw [utf8EncodeChar_ascii single, length_append] at long
          simp only [length_cons, length_nil] at long
          omega
    · exact (ih ⟨skipped, after, by rw [append_assoc, ← behind]⟩).trans
        (suffix_cons d text).isInfix

theorem fromUtf8Lossy_encoded (text : List Char) (more : List UInt8) :
    fromUtf8Lossy (text.flatMap String.utf8EncodeChar ++ more) = text ++ fromUtf8Lossy more := by
  induction text with
  | nil => rfl
  | cons c text ih =>
    obtain ⟨first, rest, encoded, -⟩ := utf8Start_encode c
    rw [flatMap_cons, encoded, append_assoc, cons_append,
      fromUtf8Lossy_char (utf8Start_encoded encoded _), drop_left, ih, cons_append]

theorem fromUtf8Lossy_utf8Bytes : fromUtf8Lossy (utf8Bytes text) = text.toList := by
  have read := fromUtf8Lossy_encoded text.toList []
  rwa [append_nil, fromUtf8Lossy, append_nil] at read

theorem fromUtf8_utf8Bytes : fromUtf8 (utf8Bytes text) = some text.toList := by
  rw [fromUtf8, fromUtf8Lossy_utf8Bytes]
  exact if_pos rfl

theorem utf8Bytes_injective {left right : String} (same : utf8Bytes left = utf8Bytes right) :
    left = right := by
  have read := congrArg fromUtf8Lossy same
  rw [fromUtf8Lossy_utf8Bytes, fromUtf8Lossy_utf8Bytes] at read
  exact String.toList_inj.mp read

end PortMate
