import Mathlib.Computability.Language

namespace PortMate

open Computability Language

/-- A pattern that a text as a whole may have. -/
inductive TextPattern (α : Type)
  | never
  | empty
  | set (accepts : α → Bool)
  | seq (first second : TextPattern α)
  | alt (left right : TextPattern α)
  | star (inner : TextPattern α)

namespace TextPattern

variable {α : Type}

def language : TextPattern α → Language α
  | never => 0
  | empty => 1
  | set accepts => {text | ∃ c, text = [c] ∧ accepts c = true}
  | seq first second => language first * language second
  | alt left right => language left + language right
  | star inner => (language inner)∗

def nullable : TextPattern α → Bool
  | never => false
  | empty => true
  | set _ => false
  | seq first second => nullable first && nullable second
  | alt left right => nullable left || nullable right
  | star _ => true

/-- What may follow `c` in a text of the pattern. -/
def deriv (c : α) : TextPattern α → TextPattern α
  | never => never
  | empty => never
  | set accepts => if accepts c then empty else never
  | seq first second =>
    if nullable first then alt (seq (deriv c first) second) (deriv c second)
    else seq (deriv c first) second
  | alt left right => alt (deriv c left) (deriv c right)
  | star inner => seq (deriv c inner) (star inner)

def accepts : TextPattern α → List α → Bool
  | pattern, [] => nullable pattern
  | pattern, c :: text => accepts (deriv c pattern) text

def opt (pattern : TextPattern α) : TextPattern α := .alt pattern .empty

def plus (pattern : TextPattern α) : TextPattern α := .seq pattern (.star pattern)

def word (letters : List (α → Bool)) : TextPattern α :=
  letters.foldr (fun letter rest => .seq (.set letter) rest) .empty

def anyOf (patterns : List (TextPattern α)) : TextPattern α := patterns.foldr .alt .never

variable (pattern : TextPattern α)

theorem nullable_iff : nullable pattern = true ↔ [] ∈ language pattern := by
  induction pattern with
  | never => simp [nullable, language, notMem_zero]
  | empty => simp [nullable, language]
  | set accepts =>
    constructor
    · exact nofun
    · rintro ⟨c, none, -⟩
      cases none
  | seq first second ihFirst ihSecond =>
    rw [nullable, Bool.and_eq_true, ihFirst, ihSecond, language, mem_mul]
    constructor
    · rintro ⟨here, there⟩
      exact ⟨[], here, [], there, rfl⟩
    · rintro ⟨a, here, b, there, none⟩
      obtain ⟨rfl, rfl⟩ := List.append_eq_nil_iff.mp none
      exact ⟨here, there⟩
  | alt left right ihLeft ihRight =>
    rw [nullable, Bool.or_eq_true, ihLeft, ihRight, language, mem_add]
  | star inner ih => simp [nullable, language, nil_mem_kstar]

theorem cons_mem_mul {c : α} {text : List α} {l m : Language α} :
    c :: text ∈ l * m ↔
      (∃ a, c :: a ∈ l ∧ ∃ b ∈ m, a ++ b = text) ∨ ([] ∈ l ∧ c :: text ∈ m) := by
  rw [mem_mul]
  constructor
  · rintro ⟨a, inFirst, b, inSecond, whole⟩
    cases a with
    | nil => exact .inr ⟨inFirst, whole ▸ inSecond⟩
    | cons d a =>
      obtain ⟨rfl, rest⟩ := List.cons.inj whole
      exact .inl ⟨a, inFirst, b, inSecond, rest⟩
  · rintro (⟨a, inFirst, b, inSecond, rfl⟩ | ⟨inFirst, inSecond⟩)
    · exact ⟨c :: a, inFirst, b, inSecond, rfl⟩
    · exact ⟨[], inFirst, c :: text, inSecond, rfl⟩

theorem cons_mem_kstar {c : α} {text : List α} {l : Language α} :
    c :: text ∈ l∗ ↔ ∃ a, c :: a ∈ l ∧ ∃ b ∈ l∗, a ++ b = text := by
  constructor
  · intro mem
    obtain ⟨parts, whole, all⟩ := mem_kstar_iff_exists_nonempty.mp mem
    cases parts with
    | nil => cases whole
    | cons part parts =>
      obtain ⟨first, others⟩ := List.forall_mem_cons.mp all
      cases part with
      | nil => exact absurd rfl first.2
      | cons d part =>
        obtain ⟨rfl, rest⟩ := List.cons.inj whole
        exact ⟨part, first.1, parts.flatten,
          join_mem_kstar fun y mem => (others y mem).1, rest.symm⟩
  · rintro ⟨a, here, b, later, rfl⟩
    have whole : c :: (a ++ b) ∈ l * l∗ := mem_mul.mpr ⟨c :: a, here, b, later, rfl⟩
    rw [← one_add_self_mul_kstar_eq_kstar l, mem_add]
    exact .inr whole

theorem deriv_iff (c : α) (pattern : TextPattern α) (text : List α) :
    text ∈ language (deriv c pattern) ↔ c :: text ∈ language pattern := by
  induction pattern generalizing text with
  | never => simp [deriv, language, notMem_zero]
  | empty => simp [deriv, language, notMem_zero, mem_one]
  | set accepts =>
    rw [deriv]
    split
    next accepted =>
      constructor
      · intro none
        obtain rfl := (mem_one text).mp none
        exact ⟨c, rfl, accepted⟩
      · rintro ⟨d, single, -⟩
        exact (mem_one text).mpr (List.cons.inj single).2
    next rejected =>
      constructor
      · exact fun none => absurd none (notMem_zero text)
      · rintro ⟨d, single, accepted⟩
        rw [(List.cons.inj single).1] at rejected
        exact absurd accepted rejected
  | seq first second ihFirst ihSecond =>
    rw [deriv, language, cons_mem_mul, ← nullable_iff, ← ihSecond]
    split
    next skips =>
      rw [language, language, mem_add, mem_mul]
      simp only [ihFirst, skips, true_and]
    next stays =>
      rw [language, mem_mul]
      simp only [ihFirst, stays, Bool.false_eq_true, false_and, or_false]
  | alt left right ihLeft ihRight =>
    rw [deriv, language, language, mem_add, mem_add, ihLeft, ihRight]
  | star inner ih =>
    rw [deriv, language, language, mem_mul, cons_mem_kstar]
    simp only [ih]

theorem accepts_iff (text : List α) : accepts pattern text = true ↔ text ∈ language pattern := by
  induction text generalizing pattern with
  | nil => exact nullable_iff pattern
  | cons c text ih => rw [accepts, ih, deriv_iff]

end TextPattern

end PortMate
