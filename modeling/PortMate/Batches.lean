namespace PortMate

open List

section Building

variable {α β : Type} (start : α → β) (join : β → α → β) (fits : β → α → Prop)

/-- A batch and the items that it was built from, in their order. -/
inductive Batched : List α → β → Prop
  | one (item : α) : Batched [item] (start item)
  | more {items : List α} {batch : β} {item : α} (built : Batched items batch)
      (room : fits batch item) : Batched (items ++ [item]) (join batch item)

end Building

namespace Batched

variable {α β γ : Type} {start : α → β} {join : β → α → β} {fits : β → α → Prop}
  {items : List α} {batch : β}

theorem ne_nil (built : Batched start join fits items batch) : items ≠ [] := by
  cases built with
  | one item => exact cons_ne_nil item []
  | more built room => simp

theorem content (built : Batched start join fits items batch) (whole : β → List γ)
    (piece : α → List γ) (first : ∀ item, whole (start item) = piece item)
    (next : ∀ batch item, whole (join batch item) = whole batch ++ piece item) :
    whole batch = items.flatMap piece := by
  induction built with
  | one item => simp [first]
  | more built room ih => rw [next, ih, flatMap_append, flatMap_singleton]

theorem shared (built : Batched start join fits items batch) (key : β → γ) (own : α → γ)
    (first : ∀ item, key (start item) = own item)
    (next : ∀ batch item, fits batch item → own item = key batch)
    (kept : ∀ batch item, key (join batch item) = key batch) :
    ∀ item ∈ items, own item = key batch := by
  induction built with
  | one item =>
    intro other mem
    obtain rfl := mem_singleton.mp mem
    exact (first other).symm
  | @more items batch item built room ih =>
    intro other mem
    rw [kept]
    rcases mem_append.mp mem with earlier | last
    · exact ih other earlier
    · obtain rfl := mem_singleton.mp last
      exact next batch other room

theorem crowded (built : Batched start join fits items batch) (alone : β → Prop)
    (needs : ∀ batch item, fits batch item → alone batch)
    (kept : ∀ batch item, alone batch → alone (join batch item)) (two : 2 ≤ items.length) :
    alone batch := by
  cases built with
  | one item => exact absurd two (by simp)
  | @more items batch item built room => exact kept batch item (needs batch item room)

theorem bounded (built : Batched start join fits items batch) (size : β → Nat) {limit : Nat}
    (room : ∀ batch item, fits batch item → size (join batch item) ≤ limit)
    (two : 2 ≤ items.length) : size batch ≤ limit := by
  cases built with
  | one item => exact absurd two (by simp)
  | @more items batch item built fit => exact room batch item fit

end Batched

end PortMate
