import Mathlib.Data.List.Basic

namespace PortMate

open List Function

section KeyedLists

variable {α β κ : Type}

/-- `iter_mut().find(..)` and an edit of what it finds. -/
def editFirst (hits : α → Bool) (edit : α → α) : List α → List α
  | [] => []
  | item :: items => if hits item then edit item :: items else item :: editFirst hits edit items

variable [DecidableEq κ]

/-- `entry(key).or_insert(start)` and an edit of the value. -/
def upsertEntry (key : κ) (start : β) (edit : β → β) (entries : List (κ × β)) : List (κ × β) :=
  (key, edit ((entries.lookup key).getD start)) :: entries.filter fun entry => entry.1 ≠ key

theorem lookup_filter_ne (key other : κ) (entries : List (κ × β)) :
    (entries.filter fun entry => entry.1 ≠ key).lookup other =
      if other = key then none else entries.lookup other := by
  induction entries with
  | nil => simp
  | cons entry entries ih =>
    obtain ⟨k, value⟩ := entry
    by_cases here : k = key
    · subst here
      rw [filter_cons_of_neg (by simp), ih, lookup_cons]
      by_cases same : other = k
      · simp [same]
      · simp [same, beq_false_of_ne same]
    · rw [filter_cons_of_pos (by simpa using here), lookup_cons, lookup_cons, ih]
      by_cases same : other = k
      · subst same
        simp [here]
      · simp [beq_false_of_ne same]

theorem lookup_upsertEntry (key other : κ) (start : β) (edit : β → β) (entries : List (κ × β)) :
    (upsertEntry key start edit entries).lookup other =
      if other = key then some (edit ((entries.lookup key).getD start))
      else entries.lookup other := by
  rw [upsertEntry, lookup_cons, lookup_filter_ne]
  by_cases same : other = key
  · simp [same]
  · simp [same, beq_false_of_ne same]

def itemsUnder (entries : List (κ × List β)) (key : κ) : List β := (entries.lookup key).getD []

theorem itemsUnder_upsertEach {keys : List κ} (distinct : keys.Nodup) (item : β) (other : κ)
    (entries : List (κ × List β)) :
    itemsUnder (keys.foldl (fun entries key => upsertEntry key [] (· ++ [item]) entries) entries)
        other =
      itemsUnder entries other ++ if other ∈ keys then [item] else [] := by
  induction keys generalizing entries with
  | nil => simp
  | cons key keys ih =>
    obtain ⟨fresh, distinct⟩ := nodup_cons.mp distinct
    rw [foldl_cons, ih distinct, itemsUnder, lookup_upsertEntry]
    by_cases same : other = key
    · subst same
      simp [itemsUnder, fresh]
    · simp [itemsUnder, same]

/-- `retain` with what is left of every key: an item stays once no more than `max` are left. -/
def retainLast (key : α → κ) (max : Nat) : (κ → Nat) → List α → List α
  | _, [] => []
  | remaining, item :: items =>
    let left := remaining (key item)
    let rest := retainLast key max (update remaining (key item) (left - 1)) items
    if left ≤ max then item :: rest else rest

/-- The last `max` items under every key. -/
def keepLast (key : α → κ) (max : Nat) (items : List α) : List α :=
  retainLast key max (fun k => items.countP fun item => key item = k) items

variable (key : α → κ)

theorem retainLast_sublist (max : Nat) (remaining : κ → Nat) (items : List α) :
    (retainLast key max remaining items).Sublist items := by
  induction items generalizing remaining with
  | nil => exact .slnil
  | cons item items ih =>
    rw [retainLast]
    split
    · exact (ih _).cons_cons item
    · exact (ih _).cons item

theorem keepLast_cons (max : Nat) (item : α) (items : List α) :
    keepLast key max (item :: items) =
      if (items.countP fun other => key other = key item) < max then item :: keepLast key max items
      else keepLast key max items := by
  have counted : ((item :: items).countP fun other => key other = key item) =
      (items.countP fun other => key other = key item) + 1 := by
    rw [countP_cons_of_pos (by simp)]
  have rest : update (fun k => (item :: items).countP fun other => key other = k) (key item)
      (((item :: items).countP fun other => key other = key item) - 1) =
      fun k => items.countP fun other => key other = k := by
    funext k
    by_cases same : k = key item
    · subst same
      rw [update_self, counted, Nat.add_sub_cancel]
    · rw [update_of_ne same, countP_cons_of_neg (by simpa using Ne.symm same)]
  rw [keepLast, retainLast, rest, counted]
  rfl

theorem keepLast_filter (max : Nat) (items : List α) (k : κ) :
    ((keepLast key max items).filter fun item => key item = k) =
      (items.filter fun item => key item = k).drop
        ((items.countP fun item => key item = k) - max) := by
  induction items with
  | nil => simp [keepLast, retainLast]
  | cons item items ih =>
    rw [keepLast_cons]
    by_cases same : key item = k
    · subst same
      have size : (items.filter fun other => key other = key item).length =
          items.countP fun other => key other = key item := countP_eq_length_filter.symm
      rw [countP_cons_of_pos (by simp), filter_cons_of_pos (by simp)]
      split
      next fits =>
        have none : (items.countP fun other => key other = key item) + 1 - max = 0 := by omega
        have before : (items.countP fun other => key other = key item) - max = 0 := by omega
        rw [filter_cons_of_pos (by simp), ih, none, before, drop_zero, drop_zero]
      next full =>
        have one : (items.countP fun other => key other = key item) + 1 - max =
            (items.countP fun other => key other = key item) - max + 1 := by omega
        rw [ih, one, drop_succ_cons]
    · have kept : ∀ list : List α, ((if (items.countP fun other => key other = key item) < max then
          item :: list else list).filter fun item => key item = k) =
          list.filter fun item => key item = k := by
        intro list
        split
        · rw [filter_cons_of_neg (by simpa using same)]
        · rfl
      rw [kept, ih, countP_cons_of_neg (by simpa using same),
        filter_cons_of_neg (by simpa using same)]

end KeyedLists

end PortMate
