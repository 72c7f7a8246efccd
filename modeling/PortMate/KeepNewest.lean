import Mathlib.Data.List.Perm.Basic
import Mathlib.Data.List.Sort

namespace PortMate

open List

section KeepNewest

variable {β κ : Type} [DecidableEq κ] (counted : β → Bool) (scope : β → κ)
  (newer : β → β → Bool) (max : Nat)

/-- How many counted entries of its own scope are newer than an entry. -/
def newerCount (entries : List β) (entry : β) : Nat :=
  entries.countP fun other => counted other && scope other = scope entry && newer other entry

/-- In the scopes that are trimmed, a counted entry stays if it is one of the newest `max`. -/
def keepNewest (trimmed : κ → Bool) (entries : List β) : List β :=
  entries.filter fun entry =>
    !(counted entry && trimmed (scope entry)) ||
      newerCount counted scope newer entries entry < max

variable {counted scope newer max} {trimmed : κ → Bool} {entries : List β}

theorem keepNewest_sublist : (keepNewest counted scope newer max trimmed entries).Sublist entries :=
  filter_sublist

theorem mem_keepNewest {entry : β} :
    entry ∈ keepNewest counted scope newer max trimmed entries ↔
      entry ∈ entries ∧ (counted entry → trimmed (scope entry) →
        newerCount counted scope newer entries entry < max) := by
  rw [keepNewest, mem_filter]
  by_cases here : counted entry <;> by_cases trims : trimmed (scope entry) <;> simp [here, trims]

section Order

variable (asymm : ∀ a b, newer a b → newer b a = false)
  (comparable : ∀ a b c, newer a b → newer a c ∨ newer c b)

include asymm in
theorem newer_irrefl (entry : β) : newer entry entry = false := by
  by_cases self : newer entry entry
  · exact asymm entry entry self
  · exact Bool.eq_false_iff.mpr self

include asymm comparable in
theorem newer_trans (a b c : β) (first : newer a b) (second : newer b c) : newer a c := by
  obtain after | back := comparable a b c first
  · exact after
  · exact absurd back (by simp [asymm b c second])

include asymm in
theorem keepNewest_within {entry : β} (listed : entry ∈ entries)
    (fits : (entries.countP fun other => counted other && scope other = scope entry) ≤ max) :
    entry ∈ keepNewest counted scope newer max trimmed entries := by
  refine mem_keepNewest.mpr ⟨listed, fun here _ => lt_of_lt_of_le ?_ fits⟩
  have inside : entry ∈ entries.filter fun other => counted other && scope other = scope entry :=
    mem_filter.mpr ⟨listed, by simp [here]⟩
  have oldest : ¬ newer entry entry = true := by simp [newer_irrefl asymm]
  have fewer := length_filter_lt_length_iff_exists (p := (newer · entry)) |>.mpr
    ⟨entry, inside, oldest⟩
  rw [filter_filter, ← countP_eq_length_filter, ← countP_eq_length_filter] at fewer
  refine lt_of_eq_of_lt (countP_congr fun other _ => ?_) fewer
  rw [Bool.and_comm]

include asymm comparable in
theorem newerCount_mono {older entry : β} (same : scope entry = scope older)
    (after : newer entry older) :
    newerCount counted scope newer entries entry ≤ newerCount counted scope newer entries older := by
  refine countP_mono_left fun other _ both => ?_
  obtain ⟨here, newest⟩ := Bool.and_eq_true_iff.mp both
  rw [same] at here
  exact Bool.and_eq_true_iff.mpr ⟨here, newer_trans asymm comparable _ _ _ newest after⟩

include asymm comparable in
theorem newerCount_keepNewest {entry : β}
    (kept : trimmed (scope entry) → newerCount counted scope newer entries entry < max) :
    newerCount counted scope newer (keepNewest counted scope newer max trimmed entries) entry =
      newerCount counted scope newer entries entry := by
  rw [newerCount, keepNewest, countP_filter]
  refine countP_congr fun other _ => ?_
  rw [Bool.and_eq_true_iff]
  refine ⟨fun both => both.1, fun here => ⟨here, ?_⟩⟩
  obtain ⟨counts, after⟩ := Bool.and_eq_true_iff.mp here
  have same : scope other = scope entry := by simpa using (Bool.and_eq_true_iff.mp counts).2
  have fewer : newerCount counted scope newer entries other ≤
      newerCount counted scope newer entries entry := newerCount_mono asymm comparable same after
  by_cases trims : trimmed (scope entry)
  · have less := lt_of_le_of_lt fewer (kept trims)
    simp [less]
  · simp [same, trims]

include asymm comparable in
theorem keepNewest_keepNewest (again : κ → Bool) :
    keepNewest counted scope newer max again (keepNewest counted scope newer max trimmed entries) =
      keepNewest counted scope newer max (fun key => trimmed key || again key) entries := by
  conv_lhs => rw [keepNewest]
  conv_lhs => arg 2; rw [keepNewest]
  rw [filter_filter]
  conv_rhs => rw [keepNewest]
  refine filter_congr fun entry listed => ?_
  by_cases here : counted entry
  · by_cases trims : trimmed (scope entry)
    · by_cases less : newerCount counted scope newer entries entry < max
      · have same : newerCount counted scope newer
            (keepNewest counted scope newer max trimmed entries) entry =
            newerCount counted scope newer entries entry :=
          newerCount_keepNewest asymm comparable fun _ => less
        simp [here, trims, less, same]
      · simp [here, trims, less]
    · have same : newerCount counted scope newer
          (keepNewest counted scope newer max trimmed entries) entry =
          newerCount counted scope newer entries entry :=
        newerCount_keepNewest asymm comparable fun trims' => absurd trims' trims
      simp [here, trims, same]
  · simp [here]

include asymm in
theorem filter_newest {sorted : List β} (order : sorted.Pairwise fun a b => newer a b)
    (max : Nat) :
    (sorted.filter fun entry => sorted.countP (fun other => newer other entry) < max) =
      sorted.take max := by
  induction sorted generalizing max with
  | nil => simp
  | cons first rest ih =>
    obtain ⟨before, order⟩ := pairwise_cons.mp order
    have none : ((first :: rest).countP fun other => newer other first) = 0 := by
      refine countP_eq_zero.mpr fun other listed => ?_
      obtain rfl | later := mem_cons.mp listed
      · simp [newer_irrefl asymm]
      · simp [asymm first other (before other later)]
    have one : ∀ entry ∈ rest, ((first :: rest).countP fun other => newer other entry) =
        (rest.countP fun other => newer other entry) + 1 := fun entry listed =>
      countP_cons_of_pos (before entry listed)
    cases max with
    | zero => simp
    | succ max =>
      rw [filter_cons_of_pos (by simp [none]), take_succ_cons, ← ih order max]
      refine congrArg (first :: ·) (filter_congr fun entry listed => ?_)
      rw [one entry listed]
      exact decide_eq_decide.mpr (by omega)

include asymm comparable in
theorem mergeSort_newest {own : List β} (total : own.Pairwise fun a b => newer a b ∨ newer b a) :
    (own.mergeSort fun a b => !newer b a).Pairwise fun a b => newer a b := by
  have weak : (own.mergeSort fun a b => !newer b a).Pairwise fun a b => !newer b a :=
    @pairwise_mergeSort _ (fun a b => !newer b a) ?_ ?_ own
  · have distinct : (own.mergeSort fun a b => !newer b a).Pairwise fun a b =>
        newer a b ∨ newer b a :=
      ((mergeSort_perm own _).pairwise_iff fun both => both.symm).mpr total
    exact (weak.and distinct).imp fun both => both.2.resolve_right (by simpa using both.1)
  · intro a b c first second
    simp only [Bool.not_eq_true'] at first second ⊢
    refine Bool.eq_false_iff.mpr fun wrong => ?_
    obtain back | back := comparable c a b wrong
    · simp [second] at back
    · simp [first] at back
  · intro a b
    by_cases back : newer b a
    · simp [asymm b a back]
    · simp [back]

include asymm comparable in
theorem mem_take_oldest {own : List β} (total : own.Pairwise fun a b => newer a b ∨ newer b a)
    {entry : β} (listed : entry ∈ own) :
    entry ∈ (own.mergeSort fun a b => !newer a b).take (own.length - max) ↔
      ¬ own.countP (fun other => newer other entry) < max := by
  let sorted := own.mergeSort fun a b => !newer a b
  have perm : sorted.Perm own := mergeSort_perm own _
  have oldest : sorted.Pairwise fun a b => newer b a :=
    mergeSort_newest (fun a b => asymm b a) (fun a b c after => (comparable b a c after).symm)
      (total.imp fun both => both.symm)
  have order : sorted.reverse.Pairwise fun a b => newer a b := pairwise_reverse.mpr oldest
  have distinct : sorted.Nodup := nodup_reverse.mp (order.imp fun {a b} after same => by
    subst same
    simp [newer_irrefl asymm] at after)
  have counts : own.countP (fun other => newer other entry) =
      sorted.reverse.countP fun other => newer other entry :=
    ((reverse_perm sorted).trans perm).countP_eq _ |>.symm
  have inside : entry ∈ sorted := perm.mem_iff.mpr listed
  have recent : entry ∈ sorted.drop (own.length - max) ↔
      own.countP (fun other => newer other entry) < max := by
    have taken := congrArg (entry ∈ ·) (filter_newest asymm order max)
    simp only [mem_filter, mem_reverse, inside, true_and, take_reverse,
      decide_eq_true_eq, ← counts, perm.length_eq] at taken
    exact taken.symm.to_iff
  rw [← recent]
  have apart := disjoint_take_drop distinct (le_refl (own.length - max))
  refine ⟨fun early late => apart early late, fun early => ?_⟩
  rw [← take_append_drop (own.length - max) sorted, mem_append] at inside
  exact inside.resolve_right early

include asymm comparable in
theorem keepNewest_count (total : entries.Pairwise fun a b => newer a b ∨ newer b a) {key : κ} (trims : trimmed key) :
    ((keepNewest counted scope newer max trimmed entries).countP fun entry =>
      counted entry && scope entry = key) =
      min max (entries.countP fun entry => counted entry && scope entry = key) := by
  let own := entries.filter fun entry => counted entry && scope entry = key
  let sorted := own.mergeSort fun a b => !newer b a
  have perm : sorted.Perm own := mergeSort_perm own _
  have order : sorted.Pairwise fun a b => newer a b :=
    mergeSort_newest asymm comparable (total.sublist filter_sublist)
  have kept : ((keepNewest counted scope newer max trimmed entries).filter fun entry =>
      counted entry && scope entry = key) =
      own.filter fun entry => own.countP (fun other => newer other entry) < max := by
    rw [keepNewest, filter_filter, filter_filter]
    refine filter_congr fun entry listed => ?_
    by_cases here : counted entry <;> by_cases same : scope entry = key
    · subst same
      have counts : newerCount counted scope newer entries entry =
          own.countP fun other => newer other entry := by
        rw [newerCount, countP_filter]
        exact countP_congr fun other _ => by rw [Bool.and_comm]
      simp [here, trims, counts]
    · simp [here, same]
    · simp [here]
    · simp [here]
  rw [countP_eq_length_filter, kept, countP_eq_length_filter]
  have counts : ∀ entry, own.countP (fun other => newer other entry) =
      sorted.countP fun other => newer other entry := fun entry => (perm.countP_eq _).symm
  simp only [counts]
  rw [← (perm.filter _).length_eq, filter_newest asymm order, length_take, perm.length_eq]

end Order

theorem keepNewest_map {γ : Type} (f : γ → β) (tagged : List γ) :
    keepNewest counted scope newer max trimmed (tagged.map f) =
      (keepNewest (counted ∘ f) (scope ∘ f) (fun other entry => newer (f other) (f entry)) max trimmed
        tagged).map f := by
  rw [keepNewest, keepNewest, filter_map]
  refine congrArg (List.map f) (filter_congr fun entry _ => ?_)
  have counts : newerCount counted scope newer (tagged.map f) (f entry) =
      newerCount (counted ∘ f) (scope ∘ f) (fun other entry => newer (f other) (f entry)) tagged
        entry := countP_map
  rw [Function.comp_apply, counts]
  rfl

theorem keepNewest_congr {after : β → β → Bool}
    (same : ∀ other ∈ entries, ∀ entry ∈ entries, newer other entry = after other entry) :
    keepNewest counted scope newer max trimmed entries =
      keepNewest counted scope after max trimmed entries := by
  refine filter_congr fun entry listed => ?_
  have counts : newerCount counted scope newer entries entry =
      newerCount counted scope after entries entry :=
    countP_congr fun other present => by rw [same other present entry listed]
  rw [counts]

end KeepNewest

section KeepNewestBy

variable {α κ ρ : Type} [DecidableEq κ] [LinearOrder ρ]

/-- Newer by rank, and under one rank by the place in the list. -/
def newerBy (rank : α → ρ) (other entry : α × Nat) : Bool :=
  rank entry.1 < rank other.1 || (rank entry.1 = rank other.1 && entry.2 < other.2)

/-- In the scopes that are trimmed, the counted items that are not among the newest `max` go. -/
def keepNewestBy (counted : α → Bool) (scope : α → κ) (rank : α → ρ) (max : Nat)
    (trimmed : κ → Bool) (items : List α) : List α :=
  (keepNewest (fun entry => counted entry.1) (fun entry => scope entry.1) (newerBy rank) max trimmed
    items.zipIdx).map Prod.fst

variable {counted : α → Bool} {scope : α → κ} {rank : α → ρ} {max : Nat} {trimmed : κ → Bool}

theorem newerBy_iff {other entry : α × Nat} : newerBy rank other entry ↔
    rank entry.1 < rank other.1 ∨ rank entry.1 = rank other.1 ∧ entry.2 < other.2 := by
  simp [newerBy]

theorem newerBy_asymm (a b : α × Nat) (newer : newerBy rank a b) : newerBy rank b a = false := by
  refine Bool.eq_false_iff.mpr fun back => ?_
  obtain first | ⟨same, first⟩ := newerBy_iff.mp newer <;>
    obtain second | ⟨_, second⟩ := newerBy_iff.mp back
  · exact absurd second first.asymm
  · exact absurd first (by simp [*])
  · exact absurd second (by simp [same])
  · omega

theorem newerBy_comparable (a b c : α × Nat) (newer : newerBy rank a b) :
    newerBy rank a c ∨ newerBy rank c b := by
  simp only [newerBy_iff] at newer ⊢
  obtain below | same | above := lt_trichotomy (rank c.1) (rank a.1)
  · exact .inl (.inl below)
  · obtain first | ⟨equal, first⟩ := newer
    · exact .inr (.inl (same ▸ first))
    · by_cases place : c.2 < a.2
      · exact .inl (.inr ⟨same, place⟩)
      · exact .inr (.inr ⟨equal.trans same.symm, by omega⟩)
  · obtain first | ⟨equal, _⟩ := newer
    · exact .inr (.inl (first.trans above))
    · exact .inr (.inl (equal ▸ above))

theorem newerBy_total (a b : α × Nat) (apart : a.2 ≠ b.2) :
    newerBy rank a b ∨ newerBy rank b a := by
  simp only [newerBy_iff]
  obtain below | same | above := lt_trichotomy (rank a.1) (rank b.1)
  · exact .inr (.inl below)
  · obtain first | second := Nat.lt_or_gt_of_ne apart
    · exact .inr (.inr ⟨same, first⟩)
    · exact .inl (.inr ⟨same.symm, second⟩)
  · exact .inl (.inl above)

theorem zipIdx_increasing (items : List α) (start : Nat) :
    (items.zipIdx start).Pairwise fun a b => a.2 < b.2 := by
  induction items generalizing start with
  | nil => exact .nil
  | cons item items ih =>
    rw [zipIdx_cons]
    refine pairwise_cons.mpr ⟨fun entry listed => ?_, ih (start + 1)⟩
    exact le_snd_of_mem_zipIdx listed

theorem keepNewestBy_tagged {entries : List (α × Nat)}
    (increasing : entries.Pairwise fun a b => a.2 < b.2) :
    keepNewestBy counted scope rank max trimmed (entries.map Prod.fst) =
      (keepNewest (fun entry => counted entry.1) (fun entry => scope entry.1) (newerBy rank) max
        trimmed entries).map Prod.fst := by
  have places : (entries.map Prod.fst).zipIdx =
      entries.zipIdx.map fun entry => (entry.1.1, entry.2) := by
    rw [zipIdx_map]
    rfl
  have itself : entries.zipIdx.map Prod.fst = entries := zipIdx_map_fst 0 entries
  have ordered : ∀ a ∈ entries.zipIdx, ∀ b ∈ entries.zipIdx, (a.2 < b.2 ↔ a.1.2 < b.1.2) := by
    intro a first b second
    have at_a := mem_zipIdx_iff_getElem?.mp first
    have at_b := mem_zipIdx_iff_getElem?.mp second
    have forward : ∀ x y : (α × Nat) × Nat, entries[x.2]? = some x.1 → entries[y.2]? = some y.1 →
        x.2 < y.2 → x.1.2 < y.1.2 := by
      intro x y at_x at_y before
      obtain ⟨bound_x, here_x⟩ := List.getElem?_eq_some_iff.mp at_x
      obtain ⟨bound_y, here_y⟩ := List.getElem?_eq_some_iff.mp at_y
      exact here_x ▸ here_y ▸ pairwise_iff_getElem.mp increasing _ _ bound_x bound_y before
    refine ⟨forward a b at_a at_b, fun before => Nat.lt_of_not_le fun later => ?_⟩
    obtain same | behind := later.eq_or_lt
    · rw [same] at at_b
      have equal : a.1 = b.1 := Option.some.inj (at_a.symm.trans at_b)
      rw [equal] at before
      omega
    · have reversed := forward b a at_b at_a behind
      omega
  rw [keepNewestBy, places, keepNewest_map, map_map]
  conv_rhs => rw [← itself, keepNewest_map, map_map]
  refine congrArg (List.map _) (keepNewest_congr fun other first entry second => ?_)
  simp only [newerBy, ordered entry second other first]

theorem zipIdx_map_keeps {kept : List (α × Nat)} {items : List α}
    (part : kept.Sublist items.zipIdx) : (kept.map Prod.fst).Sublist items := by
  have whole : items.zipIdx.map Prod.fst = items := zipIdx_map_fst 0 items
  have mapped := part.map Prod.fst
  rwa [whole] at mapped

theorem keepNewestBy_sublist (items : List α) :
    (keepNewestBy counted scope rank max trimmed items).Sublist items :=
  zipIdx_map_keeps keepNewest_sublist

theorem keepNewestBy_keepNewestBy (again : κ → Bool) (items : List α) :
    keepNewestBy counted scope rank max again (keepNewestBy counted scope rank max trimmed items) =
      keepNewestBy counted scope rank max (fun key => trimmed key || again key) items := by
  let first := keepNewest (fun entry => counted entry.1) (fun entry => scope entry.1) (newerBy rank)
    max trimmed items.zipIdx
  have increasing : first.Pairwise fun a b => a.2 < b.2 :=
    (zipIdx_increasing items 0).sublist keepNewest_sublist
  have one : keepNewestBy counted scope rank max trimmed items = first.map Prod.fst := rfl
  rw [one, keepNewestBy_tagged increasing, keepNewest_keepNewest newerBy_asymm newerBy_comparable]
  rfl

theorem keepNewestBy_congr {others : κ → Bool} {items : List α}
    (same : ∀ item ∈ items, counted item → trimmed (scope item) = others (scope item)) :
    keepNewestBy counted scope rank max trimmed items =
      keepNewestBy counted scope rank max others items := by
  refine congrArg (List.map Prod.fst) (filter_congr fun entry listed => ?_)
  by_cases here : counted entry.1
  · rw [same entry.1 (fst_mem_of_mem_zipIdx listed) here]
  · simp [here]

theorem foldl_keepNewestBy (scopes : List κ) (items : List α) :
    scopes.foldl (fun kept key => keepNewestBy counted scope rank max (fun other => other = key) kept)
        items =
      keepNewestBy counted scope rank max (fun key => scopes.contains key) items := by
  induction scopes generalizing items with
  | nil =>
    have all : keepNewestBy counted scope rank max (fun key => [].contains key) items = items := by
      have whole : items.zipIdx.map Prod.fst = items := zipIdx_map_fst 0 items
      simp [keepNewestBy, keepNewest, whole]
    exact all.symm
  | cons key scopes ih =>
    rw [foldl_cons, ih, keepNewestBy_keepNewestBy]
    refine keepNewestBy_congr fun item _ _ => ?_
    simp

theorem keepNewestBy_count {key : κ} (trims : trimmed key) (items : List α) :
    ((keepNewestBy counted scope rank max trimmed items).countP fun item =>
      counted item && scope item = key) =
      min max (items.countP fun item => counted item && scope item = key) := by
  have total : items.zipIdx.Pairwise fun a b => newerBy rank a b ∨ newerBy rank b a :=
    (zipIdx_increasing items 0).imp fun before => newerBy_total _ _ before.ne
  have whole : items.zipIdx.map Prod.fst = items := zipIdx_map_fst 0 items
  rw [keepNewestBy, countP_map]
  conv_rhs => rw [← whole, countP_map]
  exact @keepNewest_count _ _ _ (fun entry : α × Nat => counted entry.1) (fun entry => scope entry.1)
    (newerBy rank) max trimmed items.zipIdx newerBy_asymm newerBy_comparable total key trims

theorem keepNewestBy_filter {hits : α → Bool} {items : List α}
    (free : ∀ item ∈ items, hits item → counted item → trimmed (scope item) →
      (items.countP fun other => counted other && scope other = scope item) ≤ max) :
    (keepNewestBy counted scope rank max trimmed items).filter hits = items.filter hits := by
  have whole : items.zipIdx.map Prod.fst = items := zipIdx_map_fst 0 items
  conv_rhs => rw [← whole, filter_map]
  rw [keepNewestBy, filter_map, keepNewest, filter_filter]
  refine congrArg _ (filter_congr fun entry listed => ?_)
  by_cases hit : hits entry.1
  · have kept : entry ∈ keepNewest (fun entry => counted entry.1) (fun entry => scope entry.1)
        (newerBy rank) max trimmed items.zipIdx := by
      refine mem_keepNewest.mpr ⟨listed, fun here trims => ?_⟩
      have fits := free entry.1 (fst_mem_of_mem_zipIdx listed) hit here trims
      rw [← whole, countP_map] at fits
      exact (mem_keepNewest.mp (keepNewest_within newerBy_asymm listed fits)).2 here trims
    rw [keepNewest, mem_filter] at kept
    rw [kept.2, Bool.and_true]
  · simp [hit]

theorem keepNewestBy_within {items : List α}
    (fits : ∀ item ∈ items, counted item → trimmed (scope item) →
      (items.countP fun other => counted other && scope other = scope item) ≤ max) :
    keepNewestBy counted scope rank max trimmed items = items := by
  have all : (keepNewestBy counted scope rank max trimmed items).filter (fun _ => true) =
      items.filter fun _ => true := keepNewestBy_filter fun item listed _ => fits item listed
  rwa [filter_true, filter_true] at all

theorem keepNewestBy_scope (key : κ) (items : List α) :
    keepNewestBy counted scope rank max (fun other => other = key) items =
      keepNewestBy (fun item => counted item && scope item = key) (fun _ => ()) rank max
        (fun _ => true) items := by
  refine congrArg (List.map Prod.fst) (filter_congr fun entry _ => ?_)
  by_cases same : scope entry.1 = key
  · have counts : newerCount (fun entry : α × Nat => counted entry.1 && scope entry.1 = key)
        (fun _ => ()) (newerBy rank) items.zipIdx entry =
        newerCount (fun entry => counted entry.1) (fun entry => scope entry.1) (newerBy rank)
          items.zipIdx entry := countP_congr fun other _ => by simp [same]
    rw [counts]
    simp [same]
  · simp [same]

theorem keepNewestBy_cons (item : α) (items : List α) :
    keepNewestBy counted scope (fun _ => ()) max trimmed (item :: items) =
      if counted item && trimmed (scope item) &&
          max ≤ items.countP fun other => counted other && scope other = scope item
      then keepNewestBy counted scope (fun _ => ()) max trimmed items
      else item :: keepNewestBy counted scope (fun _ => ()) max trimmed items := by
  have later : ∀ entry ∈ items.zipIdx 1, 0 < entry.2 := fun entry listed =>
    le_snd_of_mem_zipIdx listed
  have whole : (items.zipIdx 1).map Prod.fst = items := zipIdx_map_fst 1 items
  have rest : keepNewestBy counted scope (fun _ => ()) max trimmed items =
      (keepNewest (fun entry => counted entry.1) (fun entry => scope entry.1)
        (newerBy fun _ => ()) max trimmed (items.zipIdx 1)).map Prod.fst := by
    conv_lhs => rw [← whole]
    exact keepNewestBy_tagged (zipIdx_increasing items 1)
  have tail : (items.zipIdx 1).filter (fun entry =>
      !(counted entry.1 && trimmed (scope entry.1)) ||
        newerCount (fun entry => counted entry.1) (fun entry => scope entry.1) (newerBy fun _ => ())
          ((item, 0) :: items.zipIdx 1) entry < max) =
      keepNewest (fun entry => counted entry.1) (fun entry => scope entry.1)
        (newerBy fun _ => ()) max trimmed (items.zipIdx 1) := by
    refine filter_congr fun entry listed => ?_
    rw [newerCount, countP_cons_of_neg (by simp [newerBy])]
    rfl
  have own : newerCount (fun entry => counted entry.1) (fun entry => scope entry.1)
      (newerBy fun _ => ()) ((item, 0) :: items.zipIdx 1) (item, 0) =
      items.countP fun other => counted other && scope other = scope item := by
    rw [newerCount, countP_cons_of_neg (by simp [newerBy])]
    conv_rhs => rw [← whole, countP_map]
    exact countP_congr fun entry listed => by simp [newerBy, later entry listed]
  rw [rest, keepNewestBy, zipIdx_cons, keepNewest, filter_cons, own, tail]
  by_cases trims : counted item && trimmed (scope item)
  · by_cases many : max ≤ items.countP fun other => counted other && scope other = scope item
    · rw [if_neg (by simpa [trims] using many), if_pos (by simpa [trims] using many)]
    · rw [if_pos (by simpa [trims] using many), if_neg (by simpa [trims] using many)]
      rfl
  · simp [trims]

end KeepNewestBy

end PortMate
