import Mathlib.Data.List.Range

namespace PortMate

open List Nat

/-- A ring that keeps the last elements pushed, with the number of all of them. -/
structure RingLog (α : Type) where
  ring : List (Option α)
  total : Nat

namespace RingLog

variable {α : Type}

def empty (capacity : Nat) : RingLog α := ⟨List.replicate capacity none, 0⟩

def push (capacity : Nat) (log : RingLog α) (item : α) : RingLog α :=
  ⟨log.ring.set (log.total % capacity) (some item), log.total + 1⟩

/-- The elements that are left, read from the oldest one on. -/
def visible (capacity : Nat) (log : RingLog α) : List α :=
  let count := min log.total capacity
  (List.range' (log.total - count) count).filterMap fun index => (log.ring[index % capacity]?).join

theorem mod_ne_of_near {capacity index total : Nat} (below : index < total)
    (near : total < index + capacity) : total % capacity ≠ index % capacity := by
  intro same
  have divides : capacity ∣ total - index :=
    dvd_of_mod_eq_zero (sub_mod_eq_zero_of_mod_eq same)
  have := le_of_dvd (by omega) divides
  omega

/-- The ring after the pushes: every recent element lies at its index, modulo the capacity. -/
structure Holds (capacity : Nat) (items : List α) (log : RingLog α) : Prop where
  size : log.ring.length = capacity
  total : log.total = items.length
  recent : ∀ index, index < items.length → items.length ≤ index + capacity →
    log.ring[index % capacity]? = some items[index]?

theorem holds_empty (capacity : Nat) : Holds capacity ([] : List α) (empty capacity) where
  size := length_replicate
  total := rfl
  recent _ none := absurd none (Nat.not_lt_zero _)

theorem Holds.push {capacity : Nat} (room : 0 < capacity) {items : List α} {log : RingLog α}
    (holds : Holds capacity items log) (item : α) :
    Holds capacity (items ++ [item]) (log.push capacity item) where
  size := by
    rw [RingLog.push, length_set]
    exact holds.size
  total := by
    rw [RingLog.push, holds.total, length_append]
    rfl
  recent index below near := by
    rw [length_append, length_singleton] at below near
    unfold RingLog.push
    dsimp only
    rw [holds.total]
    rcases Nat.lt_or_ge index items.length with old | new
    · have apart := mod_ne_of_near old (by omega : items.length < index + capacity)
      rw [getElem?_set_ne apart, holds.recent index old (by omega),
        getElem?_append_left old]
    · obtain rfl : index = items.length := by omega
      have inside : items.length % capacity < log.ring.length := by
        rw [holds.size]
        exact mod_lt _ room
      rw [getElem?_set_self inside, getElem?_concat_length]

theorem filterMap_range' (items : List α) (start count : Nat) (within : start + count ≤ items.length) :
    ((List.range' start count).filterMap fun index => items[index]?) =
      (items.drop start).take count := by
  induction count generalizing start with
  | zero => simp
  | succ count ih =>
    have here : start < items.length := by omega
    rw [range'_succ, filterMap_cons_some (getElem?_eq_getElem here),
      ih (start + 1) (by omega), drop_eq_getElem_cons here, take_succ_cons]

theorem Holds.visible {capacity : Nat} {items : List α} {log : RingLog α}
    (holds : Holds capacity items log) :
    log.visible capacity = items.drop (items.length - capacity) := by
  have read : ∀ index ∈ List.range' (items.length - min items.length capacity)
      (min items.length capacity),
      (log.ring[index % capacity]?).join = items[index]? := by
    intro index member
    obtain ⟨_, _⟩ := mem_range'_1.mp member
    rw [holds.recent index (by omega) (by omega)]
    rfl
  unfold RingLog.visible
  dsimp only
  rw [holds.total, filterMap_congr read, filterMap_range' items _ _ (by omega)]
  have start : items.length - min items.length capacity = items.length - capacity := by omega
  rw [start, take_of_length_le]
  rw [length_drop]
  omega

end RingLog

end PortMate
