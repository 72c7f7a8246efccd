import Mathlib.Data.List.Infix

namespace PortMate

open List

section SplitPattern

variable {α : Type}

/-- The first piece of a split grows to the left. -/
def growFirst (piece : List α) : List (List α) → List (List α)
  | [] => [piece]
  | first :: more => (piece ++ first) :: more

theorem growFirst_growFirst (first : α) (piece : List α) (pieces : List (List α)) :
    growFirst [first] (growFirst piece pieces) = growFirst (first :: piece) pieces := by
  cases pieces <;> rfl

theorem growFirst_nil {pieces : List (List α)} (filled : pieces ≠ []) : growFirst [] pieces = pieces := by
  cases pieces with
  | nil => exact absurd rfl filled
  | cons first more => rfl

variable [BEq α]

/-- `str::split` at a pattern that is not empty: the leftmost matches that do not overlap. The
number counts what is left of the match just found. -/
def splitPattern (pattern : List α) : Nat → List α → List (List α)
  | _, [] => [[]]
  | skip + 1, _ :: rest => splitPattern pattern skip rest
  | 0, first :: rest =>
    if pattern.isPrefixOf (first :: rest) then
      [] :: splitPattern pattern (pattern.length - 1) rest
    else growFirst [first] (splitPattern pattern 0 rest)

/-- `str::contains`. -/
def containsPattern (pattern text : List α) : Bool :=
  text.tails.any fun suffix => pattern.isPrefixOf suffix

theorem splitPattern_ne_nil (pattern : List α) (skip : Nat) (text : List α) :
    splitPattern pattern skip text ≠ [] := by
  fun_induction splitPattern pattern skip text with
  | case1 => nofun
  | case2 skip first rest ih => exact ih
  | case3 => nofun
  | case4 first rest other ih =>
    cases found : splitPattern pattern 0 rest with
    | nil => exact absurd found ih
    | cons piece pieces => nofun

theorem splitPattern_skip (pattern text rest : List α) :
    splitPattern pattern text.length (text ++ rest) = splitPattern pattern 0 rest := by
  induction text with
  | nil => rfl
  | cons first text ih => exact ih

variable [LawfulBEq α] {pattern : List α}

theorem splitPattern_match (filled : pattern ≠ []) (rest : List α) :
    splitPattern pattern 0 (pattern ++ rest) = [] :: splitPattern pattern 0 rest := by
  obtain ⟨first, body, rfl⟩ := exists_cons_of_ne_nil filled
  have here : (first :: body).isPrefixOf (first :: (body ++ rest)) = true :=
    List.isPrefixOf_iff_prefix.mpr ⟨rest, rfl⟩
  show splitPattern (first :: body) 0 (first :: (body ++ rest)) = _
  rw [splitPattern, if_pos here]
  exact congrArg _ (splitPattern_skip _ body rest)

theorem splitPattern_piece (piece rest : List α)
    (noMatch : ∀ start suffix, piece = start ++ suffix → suffix ≠ [] →
      ¬ pattern <+: suffix ++ rest) :
    splitPattern pattern 0 (piece ++ rest) = growFirst piece (splitPattern pattern 0 rest) := by
  induction piece with
  | nil => exact (growFirst_nil (splitPattern_ne_nil pattern 0 rest)).symm
  | cons first piece ih =>
    have later : splitPattern pattern 0 (piece ++ rest) =
        growFirst piece (splitPattern pattern 0 rest) := by
      refine ih fun start suffix parts filled => ?_
      exact noMatch (first :: start) suffix (congrArg _ parts) filled
    have here : ¬ pattern.isPrefixOf (first :: (piece ++ rest)) = true := by
      intro found
      exact noMatch [] (first :: piece) rfl nofun (List.isPrefixOf_iff_prefix.mp found)
    show splitPattern pattern 0 (first :: (piece ++ rest)) = _
    rw [splitPattern, if_neg here, later, growFirst_growFirst]

theorem containsPattern_of_match (pattern start rest : List α) :
    containsPattern pattern (start ++ (pattern ++ rest)) = true := by
  refine any_eq_true.mpr ⟨pattern ++ rest, ?_, ?_⟩
  · exact (mem_tails _ _).mpr (suffix_append start _)
  · exact List.isPrefixOf_iff_prefix.mpr (prefix_append pattern rest)

end SplitPattern

end PortMate
