import Mathlib.Data.List.Basic

namespace PortMate

open List

section DelimitedLists

variable {α β : Type} (item : α → List β) (Right : α → Prop)

/-- Where the code of an item stands, no other item's does, and what follows it is known. -/
def SelfDelimiting : Prop :=
  ∀ a b more more', Right a → Right b → item a ++ more = item b ++ more' → a = b ∧ more = more'

/-- `rest` cannot be taken for one more item, its followers and `behind`. -/
def ClosesBefore (behind rest : List β) : Prop :=
  ∀ (a : α) (as : List α), Right a → (∀ b ∈ as, Right b) → item a ++ (as.flatMap item ++ behind) ≠ rest

variable {item Right}

theorem closesBefore_of_no_start {behind rest : List β}
    (apart : ∀ a more, Right a → item a ++ more ≠ rest) : ClosesBefore item Right behind rest :=
  fun a _ right _ => apart a _ right

theorem closesBefore_of_length {behind rest : List β} (long : ∀ a, Right a → item a ≠ [])
    (short : rest.length ≤ behind.length) : ClosesBefore item Right behind rest := by
  intro a as right _ same
  have lengths := congrArg List.length same
  have filled := length_pos_iff.mpr (long a right)
  simp only [length_append] at lengths
  omega

theorem delimited_injective (delimiting : SelfDelimiting item Right) {rest rest' : List β}
    (closes : ClosesBefore item Right rest' rest) (closes' : ClosesBefore item Right rest rest')
    {as bs : List α} (right : ∀ a ∈ as, Right a) (right' : ∀ b ∈ bs, Right b)
    (same : as.flatMap item ++ rest = bs.flatMap item ++ rest') : as = bs ∧ rest = rest' := by
  induction as generalizing bs with
  | nil =>
    cases bs with
    | nil => exact ⟨rfl, same⟩
    | cons b bs =>
      rw [flatMap_cons, append_assoc] at same
      exact absurd same.symm
        (closes b bs (right' b mem_cons_self) fun c mem => right' c (mem_cons_of_mem b mem))
  | cons a as ih =>
    cases bs with
    | nil =>
      rw [flatMap_cons, append_assoc] at same
      exact absurd same
        (closes' a as (right a mem_cons_self) fun c mem => right c (mem_cons_of_mem a mem))
    | cons b bs =>
      rw [flatMap_cons, flatMap_cons, append_assoc, append_assoc] at same
      obtain ⟨rfl, tails⟩ := delimiting a b _ _ (right a mem_cons_self)
        (right' b mem_cons_self) same
      obtain ⟨rfl, ends⟩ := ih (fun c mem => right c (mem_cons_of_mem a mem))
        (fun c mem => right' c (mem_cons_of_mem a mem)) tails
      exact ⟨rfl, ends⟩

end DelimitedLists

end PortMate
