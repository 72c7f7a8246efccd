import Mathlib.Data.List.Basic

namespace PortMate

open List

variable {α κ : Type} [DecidableEq κ] (key : α → κ)

/-- What is behind the element of that key, or else the whole window; and whether it is whole. -/
def snapshotSince (window : List α) (after : Option κ) : List α × Bool :=
  match after.bind fun id => window.findIdx? fun x => key x = id with
  | some index => (window.drop (index + 1), false)
  | none => (window, true)

variable {key} {window view pending : List α}

theorem findIdx?_key {before after : List α} {x : α}
    (distinct : ((before ++ x :: after).map key).Nodup) :
    (before ++ x :: after).findIdx? (fun y => key y = key x) = some before.length := by
  rw [map_append, map_cons, nodup_append] at distinct
  rw [findIdx?_append]
  have absent : before.findIdx? (fun y => decide (key y = key x)) = none := by
    rw [findIdx?_eq_none_iff]
    intro y mem
    exact decide_eq_false
      (distinct.2.2 (key y) (mem_map_of_mem mem) (key x) mem_cons_self)
  rw [absent, findIdx?_cons, decide_eq_true (rfl : key x = key x)]
  simp

theorem window_cases {last : α} (follows : window <:+ view ++ [last] ++ pending) :
    (∃ before, window = before ++ last :: pending) ∨ window <:+ pending := by
  obtain ⟨gone, whole⟩ := follows
  rcases append_eq_append_iff.mp whole with ⟨part, split, rfl⟩ | ⟨between, -, rest⟩
  · rcases eq_nil_or_concat' part with rfl | ⟨before, final, rfl⟩
    · exact .inr (suffix_refl pending)
    · rw [← append_assoc] at split
      obtain ⟨-, same⟩ := append_inj' split rfl
      rw [append_assoc, ← same]
      exact .inl ⟨before, rfl⟩
  · exact .inr ⟨between, rest.symm⟩

theorem snapshotSince_cases (follows : window <:+ view ++ pending)
    (distinct : ((view ++ pending).map key).Nodup) :
    snapshotSince key window (view.getLast?.map key) = (pending, false) ∨
      snapshotSince key window (view.getLast?.map key) = (window, true) := by
  rcases eq_nil_or_concat' view with rfl | ⟨held, last, rfl⟩
  · exact .inr rfl
  · rw [getLast?_concat, Option.map_some, snapshotSince, Option.bind_some]
    rcases window_cases follows with ⟨before, rfl⟩ | later
    · left
      rw [findIdx?_key (distinct.sublist (follows.sublist.map key))]
      simp [drop_append]
    · right
      rw [append_assoc, singleton_append] at distinct
      have absent : window.findIdx? (fun x => decide (key x = key last)) = none := by
        rw [findIdx?_eq_none_iff]
        intro x mem
        have fresh := (nodup_append.mp (map_append ▸ distinct)).2.1
        rw [map_cons, nodup_cons] at fresh
        exact decide_eq_false fun same =>
          fresh.1 (same ▸ mem_map_of_mem (later.subset mem))
      rw [absent]

end PortMate
