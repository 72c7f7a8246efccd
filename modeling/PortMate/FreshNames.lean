import Mathlib.Data.List.Nodup
import Mathlib.Data.List.Perm.Subperm

namespace PortMate

open List

section FreshNames

variable {α : Type} [DecidableEq α]

/-- The first name that is not taken, from number `n` on; past `fuel` taken names, the next one. -/
def firstFree (names : Nat → α) (taken : List α) : Nat → Nat → α
  | 0, n => names n
  | fuel + 1, n => if names n ∈ taken then firstFree names taken fuel (n + 1) else names n

theorem firstFree_spec (names : Nat → α) (taken : List α) (fuel n : Nat) :
    ∃ k ≤ fuel, firstFree names taken fuel n = names (n + k) ∧
      (∀ j < k, names (n + j) ∈ taken) ∧ (k < fuel → names (n + k) ∉ taken) := by
  induction fuel generalizing n with
  | zero => exact ⟨0, Nat.le_refl 0, rfl, nofun, nofun⟩
  | succ fuel ih =>
    unfold firstFree
    split
    next used =>
      obtain ⟨k, bound, found, before, free⟩ := ih (n + 1)
      refine ⟨k + 1, by omega, by rw [found, Nat.add_right_comm, Nat.add_assoc], ?_, ?_⟩
      · intro j earlier
        cases j with
        | zero => exact used
        | succ j =>
          have there := before j (by omega)
          rwa [Nat.add_right_comm, Nat.add_assoc] at there
      · intro more
        have there := free (by omega)
        rwa [Nat.add_right_comm, Nat.add_assoc] at there
    next free => exact ⟨0, Nat.zero_le _, rfl, nofun, fun _ => free⟩

theorem exists_free {names : Nat → α} (distinct : Function.Injective names) (taken : List α) :
    ∃ k ≤ taken.length, names k ∉ taken := by
  by_contra all
  have covered : ∀ name ∈ (List.range (taken.length + 1)).map names, name ∈ taken := by
    intro name mem
    obtain ⟨k, bound, rfl⟩ := mem_map.mp mem
    by_contra free
    exact all ⟨k, by have := mem_range.mp bound; omega, free⟩
  have long := (subperm_of_subset (nodup_range.map distinct) covered).length_le
  rw [length_map, length_range] at long
  omega

theorem firstFree_eq_iff {names : Nat → α} (distinct : Function.Injective names) {taken : List α}
    {name : α} :
    firstFree names taken taken.length 0 = name ↔
      name ∉ taken ∧ ∃ k, names k = name ∧ ∀ j < k, names j ∈ taken := by
  obtain ⟨k, bound, found, before, free⟩ := firstFree_spec names taken taken.length 0
  simp only [Nat.zero_add] at found before free
  have first : names k ∉ taken := by
    intro used
    obtain ⟨m, short, unused⟩ := exists_free distinct taken
    have last : k = taken.length := by
      by_contra more
      exact free (by omega) used
    rcases Nat.lt_or_ge m k with earlier | later
    · exact unused (before m earlier)
    · have same : m = k := by omega
      exact unused (same ▸ used)
  rw [found]
  constructor
  · rintro rfl
    exact ⟨first, k, rfl, before⟩
  · rintro ⟨unused, m, rfl, earlier⟩
    rcases Nat.lt_trichotomy k m with less | rfl | more
    · exact absurd (earlier k less) first
    · rfl
    · exact absurd (before m more) unused

theorem firstFree_not_mem {names : Nat → α} (distinct : Function.Injective names)
    (taken : List α) : firstFree names taken taken.length 0 ∉ taken :=
  ((firstFree_eq_iff distinct).mp rfl).1

end FreshNames

end PortMate
