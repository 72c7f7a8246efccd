import Mathlib.Tactic.IntervalCases
import PortMate.FreshNames
import PortMate.Utf16

namespace PortMate

open List Nat

/-- What iterating over a string yields: a character, or half of one. -/
inductive JsChar
  | char (c : Char)
  | surrogate (unit : Fin 2048)
  deriving DecidableEq

open JsChar

abbrev JsString := List JsChar

instance : LawfulBEq JsString := inferInstance

/-- A JSON value as it is read; a number past the range of doubles is not finite. -/
inductive JsValue
  | null
  | bool (value : Bool)
  | number (value : Option ℚ)
  | string (text : JsString)
  | array (items : List JsValue)
  | object (fields : List (JsString × JsValue))

def jsString (text : String) : JsString := text.toList.map .char

def decimal (n : Nat) : JsString := (toDigits 10 n).map .char

namespace JsChar

def isSpace : JsChar → Bool
  | char c => isJsSpace c
  | surrogate _ => false

def isHexDigit : JsChar → Bool
  | char c => c.isDigit || ('a' ≤ c && c ≤ 'f') || ('A' ≤ c && c ≤ 'F')
  | surrogate _ => false

/-- `toUpperCase` on one of the digits. -/
def upperDigit : JsChar → JsChar
  | char c => if 'a' ≤ c ∧ c ≤ 'f' then char (Char.ofNat (c.toNat - 32)) else char c
  | surrogate unit => surrogate unit

end JsChar

def trimString (text : JsString) : JsString :=
  (text.dropWhile isSpace).rdropWhile isSpace

namespace JsValue

def fields? : Option JsValue → Option (List (JsString × JsValue))
  | some (.object fields) => some fields
  | _ => none

def isString (value : Option JsValue) (text : String) : Bool :=
  match value with
  | some (.string given) => given = jsString text
  | _ => false

end JsValue

def property (fields : List (JsString × JsValue)) (name : String) : Option JsValue :=
  fields.lookup (jsString name)

section Cleaning

-- The class `\p{C}` of regular expressions: controls, formats, surrogates, unassigned.
variable (isOther : JsChar → Bool)

def cleanText (text : JsString) (maxLength : Nat) : JsString :=
  ((trimString text).filter fun c => !isOther c).take maxLength

def cleanString (value : Option JsValue) (maxLength : Nat) : JsString :=
  match value with
  | some (.string text) => cleanText isOther text maxLength
  | _ => []

def validStrings : Option JsValue → List JsString
  | some (.array items) =>
    (items.map fun item => cleanString isOther (some item) 256).filter fun text => !text.isEmpty
  | _ => []

end Cleaning

def uniqueStrings : List JsString → List JsString
  | [] => []
  | text :: texts =>
    let rest := (uniqueStrings texts).filter (· ≠ text)
    if text.isEmpty then rest else text :: rest

def isViewColor : JsString → Bool
  | .char '#' :: digits => digits.length = 6 && digits.all JsChar.isHexDigit
  | _ => false

def sanitizeColorText (text : JsString) : JsString :=
  if isViewColor text then text.map upperDigit else []

def sanitizeViewColor : Option JsValue → JsString
  | some (.string text) => sanitizeColorText text
  | _ => []

/-- The names that a suffix search goes through: the requested one, then with `-2`, `-3` and on. -/
def numbered (requested : JsString) : Nat → JsString
  | 0 => requested
  | n + 1 => requested ++ jsString "-" ++ decimal (n + 2)

theorem upperDigit_spec {c : JsChar} (digit : c.isHexDigit = true) :
    c.upperDigit.isHexDigit = true ∧ c.upperDigit.upperDigit = c.upperDigit := by
  cases c with
  | surrogate unit => cases digit
  | char c =>
    by_cases lower : 'a' ≤ c ∧ c ≤ 'f'
    · have above : 97 ≤ c.toNat := lower.1
      have below : c.toNat ≤ 102 := lower.2
      rw [← Char.ofNat_toNat c]
      interval_cases c.toNat <;> decide
    · have same : upperDigit (.char c) = .char c := if_neg lower
      rw [same]
      exact ⟨digit, same⟩

theorem sanitizeColorText_idem (text : JsString) :
    sanitizeColorText (sanitizeColorText text) = sanitizeColorText text := by
  unfold sanitizeColorText
  split
  next valid =>
    unfold isViewColor at valid
    split at valid
    next digits =>
      simp only [Bool.and_eq_true, decide_eq_true_eq, all_eq_true] at valid
      have upper : isViewColor ((.char '#' :: digits).map upperDigit) = true := by
        change (decide ((digits.map upperDigit).length = 6) &&
          (digits.map upperDigit).all JsChar.isHexDigit) = true
        simp only [Bool.and_eq_true, decide_eq_true_eq, all_eq_true, length_map,
          mem_map]
        refine ⟨valid.1, ?_⟩
        rintro _ ⟨digit, mem, rfl⟩
        exact (upperDigit_spec (valid.2 digit mem)).1
      rw [if_pos upper, map_map]
      refine map_congr_left fun c mem => ?_
      rcases mem_cons.mp mem with rfl | mem
      · decide
      · exact (upperDigit_spec (valid.2 c mem)).2
    next => cases valid
  next => rfl

theorem decimal_injective : Function.Injective decimal := by
  intro m n same
  have digits : toDigits 10 m = toDigits 10 n :=
    (map_injective_iff.mpr fun _ _ => JsChar.char.inj) same
  rw [← @Nat.ofDigitChars_ten_toDigits m, digits, ofDigitChars_ten_toDigits]

theorem numbered_injective (requested : JsString) : Function.Injective (numbered requested) := by
  intro m n same
  cases m with
  | zero =>
    cases n with
    | zero => rfl
    | succ n =>
      have longer := congrArg List.length same
      simp [numbered, jsString] at longer
  | succ m =>
    cases n with
    | zero =>
      have longer := congrArg List.length same
      simp [numbered, jsString] at longer
    | succ n =>
      have suffix := decimal_injective (append_cancel_left same)
      omega

end PortMate
