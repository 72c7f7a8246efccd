import PortMate.RegexMatch

namespace PortMate

open List Found

variable {α : Type}

/-- A text and the text with some of its parts replaced by the mask. -/
inductive Masked (mask : List α) : List α → List α → Prop
  | nil : Masked mask [] []
  | keep (c : α) {text result : List α} (later : Masked mask text result) :
      Masked mask (c :: text) (c :: result)
  | replace (part : List α) {text result : List α} (later : Masked mask text result) :
      Masked mask (part ++ text) (mask ++ result)

namespace Masked

variable {mask : List α} {text result : List α}

theorem refl (mask text : List α) : Masked mask text text := by
  induction text with
  | nil => exact .nil
  | cons c text ih => exact .keep c ih

theorem keeps (front : List α) (masked : Masked mask text result) :
    Masked mask (front ++ text) (front ++ result) := by
  induction front with
  | nil => exact masked
  | cons c front ih => exact .keep c ih

theorem append {text' result' : List α} (masked : Masked mask text result)
    (masked' : Masked mask text' result') : Masked mask (text ++ text') (result ++ result') := by
  induction masked with
  | nil => exact masked'
  | keep c later ih => exact .keep c ih
  | replace part later ih =>
    rw [append_assoc, append_assoc]
    exact .replace part ih

theorem mem (masked : Masked mask text result) {c : α} (inside : c ∈ result) :
    c ∈ text ∨ c ∈ mask := by
  induction masked with
  | nil => exact .inl inside
  | keep d later ih =>
    rcases mem_cons.mp inside with rfl | inside
    · exact .inl mem_cons_self
    · exact (ih inside).imp_left (mem_cons_of_mem d)
  | replace part later ih =>
    rcases mem_append.mp inside with here | inside
    · exact .inr here
    · exact (ih inside).imp_left (mem_append_right part)

end Masked

namespace Regex

/-- No class of the pattern has the first or the last letter of the mask, and the pattern finds
nothing inside. -/
structure ShutBy (r : Regex α) (mask : List α) : Prop where
  opening : ∃ d rest, mask = d :: rest ∧ r.rejects d = true
  closing : ∃ inner d, mask = inner ++ [d] ∧ r.rejects d = true ∧
    ∀ part ∈ inner.tails, r.matchesAt part = []

variable {r : Regex α} {mask text result : List α}

theorem ShutBy.matches_before (shut : r.ShutBy mask) (front tail other : List α)
    (found : r.matchesAt (front ++ (mask ++ tail)) ≠ []) : r.matchesAt (front ++ other) ≠ [] := by
  obtain ⟨d, rest, rfl, rejected⟩ := shut.opening
  have settled := settledAt_of_rejects rejected front (rest ++ tail)
  rw [SettledAt] at settled
  rw [cons_append, settled, ne_eq, map_eq_nil_iff] at found
  obtain ⟨m, mem⟩ := exists_mem_of_ne_nil _ found
  exact ne_nil_of_mem (matchesAt_append other mem)

theorem ShutBy.unmatched (shut : r.ShutBy mask) {part : List α} (nonempty : part ≠ [])
    (suffix : part <:+ mask) (tail : List α) : r.matchesAt (part ++ tail) = [] := by
  obtain ⟨inner, d, rfl, rejected, none⟩ := shut.closing
  exact unmatched_part inner rejected none nonempty suffix tail

theorem masked_matches (shut : r.ShutBy mask) (masked : Masked mask text result)
    (front tail : List α) (found : r.matchesAt (front ++ (result ++ tail)) ≠ []) :
    r.matchesAt (front ++ (text ++ tail)) ≠ [] := by
  induction masked generalizing front with
  | nil => exact found
  | keep c later ih =>
    rw [cons_append, append_cons] at found ⊢
    exact ih (front ++ [c]) found
  | replace part later ih =>
    rw [append_assoc] at found
    exact shut.matches_before front _ _ found

theorem masked_unmatched (shut : r.ShutBy mask) (masked : Masked mask text result) (tail : List α)
    (unmatched : ∀ s, s ≠ [] → s <:+ text → r.matchesAt (s ++ tail) = []) :
    ∀ s, s ≠ [] → s <:+ result → r.matchesAt (s ++ tail) = [] := by
  induction masked with
  | nil => exact unmatched
  | @keep c text result later ih =>
    intro s nonempty suffix
    obtain rfl | suffix := suffix_cons_iff.mp suffix
    · by_contra found
      have before := masked_matches shut later [c] tail found
      exact before (unmatched (c :: text) (cons_ne_nil _ _) (suffix_refl _))
    · exact ih (fun s nonempty inside =>
        unmatched s nonempty (inside.trans (suffix_cons c text))) s nonempty suffix
  | @replace part text result later ih =>
    intro s nonempty suffix
    obtain suffix | ⟨inside, insideNonempty, insideSuffix, rfl⟩ := suffix_append_cases suffix
    · exact ih (fun s nonempty inside =>
        unmatched s nonempty (inside.trans (suffix_append part text))) s nonempty suffix
    · rw [append_assoc]
      exact shut.unmatched insideNonempty insideSuffix _

theorem replacePieces_masked (takes : r.TakesText)
    {replacement : List α → List (List α) → List α} (text : List α)
    (masks : ∀ s m, r.first s = some m → Masked mask m.taken (replacement m.taken m.captures)) :
    Masked mask text (replacePieces replacement (r.pieces text)) := by
  induction text using search_induction takes with
  | nil => exact .nil
  | pass c text none ih =>
    rw [pieces_none none]
    exact .keep c ih
  | found c text m found ih =>
    rw [pieces_some takes found, ← taken_append_rest (first_mem found)]
    exact (masks _ m found).append ih

theorem seq_assoc (a b c : Regex α) (text : List α) :
    (Regex.seq a (.seq b c)).matchesAt text = (Regex.seq (.seq a b) c).matchesAt text := by
  simp only [matchesAt, flatMap_assoc, map_flatMap, flatMap_map, map_map]
  apply flatMap_congr
  intro x _
  apply flatMap_congr
  intro y _
  apply map_congr_left
  intro z _
  simp [followedBy]

def groupless : Regex α → Bool
  | .empty | .set _ | .many _ _ => true
  | .seq a b | .alt a b => groupless a && groupless b
  | .capture _ => false

theorem groupless_captures {r : Regex α} (plain : r.groupless = true) {text : List α} {m : Found α}
    (mem : m ∈ r.matchesAt text) : m.captures = [] := by
  induction r generalizing text m with
  | empty =>
    obtain rfl := mem_singleton.mp mem
    rfl
  | set accepts =>
    cases text with
    | nil => exact absurd mem not_mem_nil
    | cons c text =>
      rw [matchesAt] at mem
      split at mem
      · obtain rfl := mem_singleton.mp mem
        rfl
      · exact absurd mem not_mem_nil
  | many greedy accepts => exact (mem_manyAt mem).2.1
  | seq a b ihA ihB =>
    obtain ⟨plainA, plainB⟩ := Bool.and_eq_true_iff.mp plain
    obtain ⟨x, xMem, y, yMem, rfl⟩ := mem_seq.mp mem
    rw [followedBy_captures, ihA plainA xMem, ihB plainB yMem, append_nil]
  | alt a b ihA ihB =>
    obtain ⟨plainA, plainB⟩ := Bool.and_eq_true_iff.mp plain
    obtain mem | mem := mem_append.mp mem
    · exact ihA plainA mem
    · exact ihB plainB mem
  | capture inner ih => cases plain

theorem manyAt_head (accepts : α → Bool) (text : List α) :
    (manyAt true accepts text).head? =
      some ⟨text.takeWhile accepts, [], text.dropWhile accepts⟩ := by
  induction text with
  | nil => rfl
  | cons c text ih =>
    rw [manyAt]
    split
    next accepted => simp [ih, accepted, beyond]
    next rejected => simp [rejected, nothing]

end Regex

end PortMate
