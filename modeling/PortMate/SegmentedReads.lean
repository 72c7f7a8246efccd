import Mathlib.Data.List.Basic

namespace PortMate

open List Option

section Segments

variable {α : Type}

/-- One read of a stream into a buffer of `room` places. The stream is cut into segments, and a read
takes what fits of the next one; nothing comes after the last, nor into an empty buffer. -/
def readSome (room : Nat) : List (List α) → Option (List α × List (List α))
  | [] => none
  | [] :: segments => readSome room segments
  | (x :: xs) :: segments =>
    if room = 0 then none else some ((x :: xs).take room, (x :: xs).drop room :: segments)

variable {room : Nat} {segments rest : List (List α)} {found : List α}

theorem readSome_flatten (read : readSome room segments = some (found, rest)) :
    found ++ rest.flatten = segments.flatten := by
  fun_induction readSome room segments with
  | case1 => simp at read
  | case2 segments ih => simpa using ih read
  | case3 => simp at read
  | case4 x xs segments filled =>
    obtain ⟨rfl, rfl⟩ := Prod.mk.inj (Option.some.inj read)
    rw [flatten_cons, flatten_cons, ← append_assoc, take_append_drop]

theorem readSome_found (read : readSome room segments = some (found, rest)) :
    found ≠ [] ∧ found.length ≤ room := by
  fun_induction readSome room segments with
  | case1 => simp at read
  | case2 segments ih => exact ih read
  | case3 => simp at read
  | case4 x xs segments filled =>
    obtain ⟨rfl, rfl⟩ := Prod.mk.inj (Option.some.inj read)
    refine ⟨?_, length_take_le _ _⟩
    cases room with
    | zero => exact absurd rfl filled
    | succ room => simp

theorem readSome_length (read : readSome room segments = some (found, rest)) :
    found.length + rest.flatten.length = segments.flatten.length := by
  rw [← readSome_flatten read, length_append]

theorem readSome_shorter (read : readSome room segments = some (found, rest)) :
    rest.flatten.length < segments.flatten.length := by
  have total := readSome_length read
  have := length_pos_iff.mpr (readSome_found read).1
  omega

theorem readSome_none {segments : List (List α)} (places : 0 < room)
    (read : readSome room segments = none) : segments.flatten = [] := by
  fun_induction readSome room segments with
  | case1 => rfl
  | case2 segments ih => exact ih read
  | case3 x xs segments empty => omega
  | case4 => simp at read

def singles (stream : List α) : List (List α) := stream.map fun x => [x]

theorem flatten_singles (stream : List α) : (singles stream).flatten = stream := by
  induction stream with
  | nil => rfl
  | cons x stream ih =>
    rw [singles, map_cons, flatten_cons]
    exact congrArg (x :: ·) ih

def Single (segments : List (List α)) : Prop := ∀ segment ∈ segments, segment.length ≤ 1

theorem single_singles (stream : List α) : Single (singles stream) := by
  intro segment mem
  obtain ⟨x, -, rfl⟩ := mem_map.mp mem
  exact Nat.le_refl _

theorem readSome_single (single : Single segments)
    (read : readSome room segments = some (found, rest)) : found.length = 1 ∧ Single rest := by
  fun_induction readSome room segments with
  | case1 => simp at read
  | case2 segments ih => exact ih (fun segment mem => single segment (.tail _ mem)) read
  | case3 => simp at read
  | case4 x xs segments filled =>
    have short := single (x :: xs) (.head _)
    have taken : readSome room ((x :: xs) :: segments) =
        some ((x :: xs).take room, (x :: xs).drop room :: segments) := by
      rw [readSome, if_neg filled]
    have bound := readSome_found taken
    obtain ⟨rfl, rfl⟩ := Prod.mk.inj (Option.some.inj read)
    have some := length_pos_iff.mpr bound.1
    simp only [length_take, length_cons] at short some ⊢
    refine ⟨by omega, fun segment mem => ?_⟩
    rcases mem_cons.mp mem with rfl | mem
    · simp only [length_drop, length_cons]
      omega
    · exact single segment (.tail _ mem)

end Segments

section Find

variable {α : Type} [BEq α]

/-- `windows(n).position`: where a pattern first begins. -/
def findPattern (pattern : List α) : List α → Option Nat
  | [] => none
  | x :: rest =>
    if pattern.isPrefixOf (x :: rest) then some 0 else (findPattern pattern rest).map (· + 1)

end Find

section FindLemmas

variable {α : Type} [BEq α] [LawfulBEq α] {pattern : List α}

variable {stream : List α} {index : Nat}

theorem findPattern_match (found : findPattern pattern stream = some index) :
    pattern <+: stream.drop index := by
  induction stream generalizing index with
  | nil => simp [findPattern] at found
  | cons x rest ih =>
    unfold findPattern at found
    split at found
    next here =>
      cases Option.some.inj found
      exact List.isPrefixOf_iff_prefix.mp here
    next =>
      obtain ⟨later, foundLater, rfl⟩ := map_eq_some_iff.mp found
      exact ih foundLater

theorem findPattern_length (found : findPattern pattern stream = some index) :
    index + pattern.length ≤ stream.length := by
  induction stream generalizing index with
  | nil => simp [findPattern] at found
  | cons x rest ih =>
    unfold findPattern at found
    split at found
    next here =>
      cases Option.some.inj found
      simpa using (List.isPrefixOf_iff_prefix.mp here).length_le
    next =>
      obtain ⟨later, foundLater, rfl⟩ := map_eq_some_iff.mp found
      have := ih foundLater
      rw [length_cons]
      omega

theorem isPrefixOf_append (more : List α) (fits : pattern.length ≤ stream.length) :
    pattern.isPrefixOf (stream ++ more) = pattern.isPrefixOf stream := by
  rw [Bool.eq_iff_iff, List.isPrefixOf_iff_prefix, List.isPrefixOf_iff_prefix]
  constructor
  · intro start
    exact prefix_of_prefix_length_le start (prefix_append stream more) fits
  · intro start
    exact start.trans (prefix_append stream more)

theorem findPattern_append (more : List α) (found : findPattern pattern stream = some index) :
    findPattern pattern (stream ++ more) = some index := by
  induction stream generalizing index with
  | nil => simp [findPattern] at found
  | cons x rest ih =>
    have fits : pattern.length ≤ (x :: rest).length := by
      have := findPattern_length found
      omega
    rw [cons_append, findPattern, ← cons_append, isPrefixOf_append more fits]
    unfold findPattern at found
    split at found
    next here =>
      rw [if_pos here]
      exact found
    next notHere =>
      obtain ⟨later, foundLater, rfl⟩ := map_eq_some_iff.mp found
      rw [if_neg notHere, ih foundLater]
      rfl

theorem findPattern_inside {stream more : List α} (filled : pattern ≠ [])
    (found : findPattern pattern (stream ++ more) = some index)
    (fits : index + pattern.length ≤ stream.length) : findPattern pattern stream = some index := by
  induction stream generalizing index with
  | nil =>
    have := length_pos_iff.mpr filled
    simp only [length_nil] at fits
    omega
  | cons x rest ih =>
    rw [cons_append, findPattern, ← cons_append,
      isPrefixOf_append more (by omega)] at found
    unfold findPattern
    split at found
    next here =>
      rw [if_pos here]
      exact found
    next notHere =>
      obtain ⟨later, foundLater, rfl⟩ := map_eq_some_iff.mp found
      rw [length_cons] at fits
      rw [if_neg notHere, ih foundLater (by omega)]
      rfl

theorem findPattern_first (found : findPattern pattern stream = some index) :
    ∀ earlier < index, ¬ pattern <+: stream.drop earlier := by
  induction stream generalizing index with
  | nil => simp [findPattern] at found
  | cons x rest ih =>
    unfold findPattern at found
    split at found
    next here =>
      cases Option.some.inj found
      exact fun earlier before => absurd before (Nat.not_lt_zero _)
    next notHere =>
      obtain ⟨later, foundLater, rfl⟩ := map_eq_some_iff.mp found
      intro earlier before
      cases earlier with
      | zero => exact fun start => notHere (List.isPrefixOf_iff_prefix.mpr start)
      | succ earlier => exact ih foundLater earlier (Nat.lt_of_succ_lt_succ before)

theorem findPattern_eq_none (filled : pattern ≠ []) :
    findPattern pattern stream = none ↔ ¬ pattern <:+: stream := by
  induction stream with
  | nil => simp [findPattern, filled]
  | cons x rest ih =>
    unfold findPattern
    rw [infix_cons_iff, not_or, ← ih, ← List.isPrefixOf_iff_prefix]
    split
    next here => simp [here]
    next notHere => simp [notHere]

theorem findPattern_isSome (filled : pattern ≠ []) :
    (findPattern pattern stream).isSome ↔ pattern <:+: stream := by
  rw [← not_iff_not, ← findPattern_eq_none filled, Bool.not_eq_true, isSome_eq_false_iff,
    isNone_iff_eq_none]

theorem findPattern_behind {old kept more : List α} (absent : ¬ pattern <:+: old ++ kept)
    (enough : old = [] ∨ pattern.length ≤ kept.length + 1) :
    findPattern pattern (old ++ kept ++ more) =
      (findPattern pattern (kept ++ more)).map (· + old.length) := by
  induction old with
  | nil => simp
  | cons x old ih =>
    have enough := enough.resolve_left (cons_ne_nil x old)
    have fits : pattern.length ≤ (x :: old ++ kept).length := by
      rw [cons_append, length_cons, length_append]
      omega
    have notHere : ¬ pattern.isPrefixOf (x :: old ++ kept ++ more) = true := by
      rw [isPrefixOf_append more fits, List.isPrefixOf_iff_prefix]
      exact fun start => absent start.isInfix
    have later : ¬ pattern <:+: old ++ kept := fun inside =>
      absent (inside.trans (suffix_cons x _).isInfix)
    rw [cons_append, cons_append] at notHere ⊢
    rw [findPattern, if_neg notHere, ih later (.inr enough), Option.map_map, length_cons]
    rfl

end FindLemmas

end PortMate
