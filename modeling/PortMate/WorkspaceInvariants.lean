import PortMate.Workspace

namespace PortMate

open List Option WorkspaceNode

def viewIdsOf (panes : List WorkspacePane) : List JsString :=
  panes.flatMap fun pane => pane.views.map (·.id)

structure PaneInvariant (pane : WorkspacePane) : Prop where
  activeView : pane.activeViewId ∈ pane.views.map (·.id)
  viewCount : pane.views.length ≤ maxWorkspaceGroupTabs

structure PanesInvariant (panes : List WorkspacePane) : Prop where
  ids : (panes.map (·.id)).Nodup
  viewIds : (viewIdsOf panes).Nodup
  each : ∀ pane ∈ panes, PaneInvariant pane
  count : panes.length ≤ maxWorkspacePanes

def workspaceSplits (root : Option WorkspaceNode) : List (JsString × ℚ) :=
  (root.map (·.splits)).getD []

def workspaceHeight (root : Option WorkspaceNode) : Nat := (root.map (·.height)).getD 0

/-- The representation invariant of a workspace. -/
structure WorkspaceInvariant (root : Option WorkspaceNode) : Prop where
  panes : PanesInvariant (workspacePaneLeaves root)
  splitIds : ((workspaceSplits root).map (·.1)).Nodup
  apart : ∀ id ∈ (workspacePaneLeaves root).map (·.id), id ∉ (workspaceSplits root).map (·.1)
  depth : workspaceHeight root ≤ maxWorkspaceDepth
  ratios : ∀ split ∈ workspaceSplits root,
    minWorkspaceSplitRatio ≤ split.2 ∧ split.2 ≤ maxWorkspaceSplitRatio

/-- The invariant but for the ids of panes and splits being apart: each kind is looked up by
itself. -/
structure KindwiseInvariant (root : Option WorkspaceNode) : Prop where
  panes : PanesInvariant (workspacePaneLeaves root)
  splitIds : ((workspaceSplits root).map (·.1)).Nodup
  depth : workspaceHeight root ≤ maxWorkspaceDepth
  ratios : ∀ split ∈ workspaceSplits root,
    minWorkspaceSplitRatio ≤ split.2 ∧ split.2 ≤ maxWorkspaceSplitRatio

theorem WorkspaceInvariant.kindwise {root : Option WorkspaceNode} (inv : WorkspaceInvariant root) :
    KindwiseInvariant root where
  panes := inv.panes
  splitIds := inv.splitIds
  depth := inv.depth
  ratios := inv.ratios

theorem KindwiseInvariant.of_apart {root : Option WorkspaceNode} (inv : KindwiseInvariant root)
    (apart : ∀ id ∈ (workspacePaneLeaves root).map (·.id), id ∉ (workspaceSplits root).map (·.1)) :
    WorkspaceInvariant root where
  panes := inv.panes
  splitIds := inv.splitIds
  apart := apart
  depth := inv.depth
  ratios := inv.ratios

section Panes

theorem viewIdsOf_append (panes others : List WorkspacePane) :
    viewIdsOf (panes ++ others) = viewIdsOf panes ++ viewIdsOf others := flatMap_append

theorem viewIdsOf_cons (pane : WorkspacePane) (panes : List WorkspacePane) :
    viewIdsOf (pane :: panes) = pane.views.map (·.id) ++ viewIdsOf panes := rfl

theorem PanesInvariant.perm {panes others : List WorkspacePane} (inv : PanesInvariant panes)
    (perm : panes.Perm others) : PanesInvariant others where
  ids := (perm.map _).nodup_iff.mp inv.ids
  viewIds := (perm.flatMap_right _).nodup_iff.mp inv.viewIds
  each := fun pane mem => inv.each pane (perm.mem_iff.mpr mem)
  count := perm.length_eq ▸ inv.count

theorem PanesInvariant.replace {old new rest : List WorkspacePane}
    (inv : PanesInvariant (old ++ rest)) (ids : (new.map (·.id)).Nodup)
    (fresh : ∀ id ∈ new.map (·.id), id ∈ old.map (·.id) ∨ id ∉ rest.map (·.id))
    (viewIds : (viewIdsOf new).Nodup)
    (freshViews : ∀ id ∈ viewIdsOf new, id ∈ viewIdsOf old ∨ id ∉ viewIdsOf rest)
    (each : ∀ pane ∈ new, PaneInvariant pane)
    (count : new.length + rest.length ≤ maxWorkspacePanes) : PanesInvariant (new ++ rest) := by
  have oldIds := inv.ids
  rw [map_append, nodup_append] at oldIds
  have oldViews := inv.viewIds
  rw [viewIdsOf_append, nodup_append] at oldViews
  constructor
  · rw [map_append, nodup_append]
    refine ⟨ids, oldIds.2.1, fun id here other there same => ?_⟩
    subst same
    rcases fresh id here with known | none
    · exact oldIds.2.2 id known id there rfl
    · exact none there
  · rw [viewIdsOf_append, nodup_append]
    refine ⟨viewIds, oldViews.2.1, fun id here other there same => ?_⟩
    subst same
    rcases freshViews id here with known | none
    · exact oldViews.2.2 id known id there rfl
    · exact none there
  · intro pane mem
    rcases mem_append.mp mem with here | there
    · exact each pane here
    · exact inv.each pane (mem_append_right _ there)
  · rw [length_append]
    exact count

theorem exists_perm_of_find {panes : List WorkspacePane} (ids : (panes.map (·.id)).Nodup)
    {paneId : JsString} {pane : WorkspacePane}
    (found : panes.find? (fun pane => pane.id = paneId) = some pane) :
    pane.id = paneId ∧ ∃ rest, panes.Perm (pane :: rest) ∧ ∀ other ∈ rest, other.id ≠ paneId := by
  have named : pane.id = paneId := by simpa using find?_some found
  refine ⟨named, panes.erase pane, perm_cons_erase (mem_of_find?_eq_some found), ?_⟩
  have split := ((perm_cons_erase (mem_of_find?_eq_some found)).map (·.id)).nodup_iff.mp ids
  rw [map_cons, nodup_cons] at split
  intro other mem same
  exact split.1 (mem_map.mpr ⟨other, mem, same.trans named.symm⟩)

theorem filterMap_kept {edit : WorkspacePane → Option WorkspacePane} {rest : List WorkspacePane}
    (kept : ∀ other ∈ rest, edit other = some other) : rest.filterMap edit = rest := by
  induction rest with
  | nil => rfl
  | cons first rest ih =>
    rw [filterMap_cons_some (kept first (.head _)),
      ih fun other mem => kept other (.tail _ mem)]

theorem filterMap_onPane_rest {paneId : JsString} {edit : WorkspacePane → Option WorkspacePane}
    {rest : List WorkspacePane} (others : ∀ other ∈ rest, other.id ≠ paneId) :
    rest.filterMap (onPane paneId edit) = rest :=
  filterMap_kept fun other mem => if_neg (others other mem)

end Panes

section Trees

theorem leaves_ne_nil (node : WorkspaceNode) : node.leaves ≠ [] := by
  induction node with
  | pane leaf => exact cons_ne_nil _ _
  | split id direction ratio first second ihFirst _ =>
    exact fun empty => ihFirst (append_eq_nil_iff.mp empty).1

variable {edit : WorkspacePane → Option WorkspacePane}

theorem leaves_editPanes (root : WorkspaceNode) :
    workspacePaneLeaves (root.editPanes edit) = root.leaves.filterMap edit := by
  induction root with
  | pane leaf =>
    unfold WorkspaceNode.editPanes leaves
    cases edited : edit leaf with
    | none => simp [workspacePaneLeaves, edited]
    | some pane => simp [workspacePaneLeaves, leaves, edited]
  | split id direction ratio first second ihFirst ihSecond =>
    unfold WorkspaceNode.editPanes leaves
    rw [filterMap_append, ← ihFirst, ← ihSecond]
    cases first.editPanes edit with
    | none => rfl
    | some first =>
      cases second.editPanes edit with
      | none => exact (append_nil _).symm
      | some second => rfl

theorem splits_editPanes (root : WorkspaceNode) :
    (workspaceSplits (root.editPanes edit)).Sublist root.splits := by
  induction root with
  | pane leaf =>
    unfold WorkspaceNode.editPanes
    cases edit leaf <;> exact .refl _
  | split id direction ratio first second ihFirst ihSecond =>
    unfold WorkspaceNode.editPanes splits
    cases editedFirst : first.editPanes edit with
    | none => exact .cons _ (ihSecond.trans (sublist_append_right _ _))
    | some left =>
      rw [editedFirst] at ihFirst
      cases editedSecond : second.editPanes edit with
      | none => exact .cons _ (ihFirst.trans (sublist_append_left _ _))
      | some right =>
        rw [editedSecond] at ihSecond
        exact .cons_cons _ (ihFirst.append ihSecond)

theorem height_editPanes (root : WorkspaceNode) :
    workspaceHeight (root.editPanes edit) ≤ root.height := by
  induction root with
  | pane leaf =>
    unfold WorkspaceNode.editPanes
    cases edit leaf <;> exact Nat.le_refl 0
  | split id direction ratio first second ihFirst ihSecond =>
    unfold WorkspaceNode.editPanes height
    cases editedFirst : first.editPanes edit with
    | none =>
      change workspaceHeight (second.editPanes edit) ≤ _
      omega
    | some left =>
      rw [editedFirst] at ihFirst
      change left.height ≤ _ at ihFirst
      cases editedSecond : second.editPanes edit with
      | none =>
        change left.height ≤ _
        omega
      | some right =>
        rw [editedSecond] at ihSecond
        change right.height ≤ _ at ihSecond
        change max left.height right.height + 1 ≤ _
        omega

theorem WorkspaceInvariant.editPanes {root : WorkspaceNode}
    (inv : WorkspaceInvariant (some root)) (panes : PanesInvariant (root.leaves.filterMap edit))
    (ids : ∀ id ∈ (root.leaves.filterMap edit).map (·.id), id ∈ root.leaves.map (·.id)) :
    WorkspaceInvariant (root.editPanes edit) := by
  have fewer := @splits_editPanes edit root
  constructor
  · rw [leaves_editPanes]
    exact panes
  · exact inv.splitIds.sublist (fewer.map _)
  · rw [leaves_editPanes]
    intro id mem there
    exact inv.apart id (ids id mem) ((fewer.map _).subset there)
  · exact Nat.le_trans (height_editPanes root) inv.depth
  · exact fun split mem => inv.ratios split (fewer.subset mem)

theorem normalizeSplitRatio_bounds (ratio : Option ℚ) :
    minWorkspaceSplitRatio ≤ normalizeSplitRatio ratio ∧
      normalizeSplitRatio ratio ≤ maxWorkspaceSplitRatio := by
  refine ⟨le_min ?_ (le_max_left _ _), min_le_left _ _⟩
  unfold minWorkspaceSplitRatio maxWorkspaceSplitRatio
  norm_num

end Trees

section PaneEdits

theorem normalizeView_idem (view : WorkspaceView) :
    normalizeView (normalizeView view) = normalizeView view := by
  unfold normalizeView
  rw [sanitizeColorText_idem]

theorem createWorkspacePaneFromViews_spec {id activeViewId : JsString} {views : List WorkspaceView}
    (filled : views ≠ []) (room : views.length ≤ maxWorkspaceGroupTabs) :
    ∃ pane, createWorkspacePaneFromViews id views activeViewId = some pane ∧ pane.id = id ∧
      pane.views = views.map normalizeView ∧ PaneInvariant pane := by
  unfold createWorkspacePaneFromViews
  rw [take_of_length_le room]
  cases views with
  | nil => exact absurd rfl filled
  | cons first views =>
    refine ⟨_, rfl, rfl, rfl, ?_, by simpa using room⟩
    dsimp only
    cases found : ((first :: views).map normalizeView).find? fun view => view.id = activeViewId with
    | none => exact mem_map.mpr ⟨normalizeView first, mem_cons_self, rfl⟩
    | some view => exact mem_map.mpr ⟨view, mem_of_find?_eq_some found, rfl⟩

theorem createWorkspacePaneFromViews_activates {id : JsString} {views : List WorkspaceView}
    {view : WorkspaceView} (room : views.length ≤ maxWorkspaceGroupTabs) (mem : view ∈ views) :
    ∃ pane, createWorkspacePaneFromViews id views view.id = some pane ∧ pane.id = id ∧
      pane.activeViewId = view.id := by
  obtain ⟨first, rest, rfl⟩ := exists_cons_of_ne_nil (ne_nil_of_mem mem)
  unfold createWorkspacePaneFromViews
  rw [take_of_length_le room]
  refine ⟨_, rfl, rfl, ?_⟩
  dsimp only
  cases found : ((first :: rest).map normalizeView).find? fun other => other.id = view.id with
  | none =>
    have absent := find?_eq_none.mp found (normalizeView view) (mem_map.mpr ⟨view, mem, rfl⟩)
    exact absurd rfl (by simpa using absent : (normalizeView view).id ≠ view.id)
  | some other => simpa using find?_some found

theorem createWorkspacePaneFromViews_sessions {id activeViewId : JsString}
    {views : List WorkspaceView} {pane : WorkspacePane}
    (made : createWorkspacePaneFromViews id views activeViewId = some pane) :
    pane.sessionIds = pane.views.map (·.sessionId) ∧
      ∃ view ∈ pane.views, view.id = pane.activeViewId ∧ view.sessionId = pane.sessionId := by
  unfold createWorkspacePaneFromViews at made
  obtain ⟨first, head, rfl⟩ := map_eq_some_iff.mp made
  refine ⟨rfl, ?_⟩
  dsimp only
  cases found : ((views.take maxWorkspaceGroupTabs).map normalizeView).find? fun view =>
      view.id = activeViewId with
  | none => exact ⟨first, mem_of_head? head, rfl, rfl⟩
  | some view => exact ⟨view, mem_of_find?_eq_some found, rfl, rfl⟩

/-- The edit of one pane keeps the invariant when what it leaves of the pane has the id of the pane
and views of it. -/
theorem WorkspaceInvariant.onPane {root : WorkspaceNode} {paneId : JsString}
    {edit : WorkspacePane → Option WorkspacePane} (inv : WorkspaceInvariant (some root))
    (edited : ∀ pane ∈ root.leaves, pane.id = paneId → ∀ left, edit pane = some left →
      left.id = paneId ∧ (left.views.map (·.id)).Nodup ∧
        (∀ id ∈ left.views.map (·.id), id ∈ pane.views.map (·.id)) ∧ PaneInvariant left) :
    WorkspaceInvariant (root.editPanes (onPane paneId edit)) := by
  have panes : PanesInvariant root.leaves := inv.panes
  cases found : root.leaves.find? fun pane => pane.id = paneId with
  | none =>
    have same : root.leaves.filterMap (PortMate.onPane paneId edit) = root.leaves :=
      filterMap_onPane_rest fun other mem => by simpa using find?_eq_none.mp found other mem
    refine inv.editPanes ?_ ?_
    · rwa [same]
    · rw [same]
      exact fun id mem => mem
  | some pane =>
    have there := mem_of_find?_eq_some found
    obtain ⟨named, rest, perm, others⟩ := exists_perm_of_find panes.ids found
    have left : (root.leaves.filterMap (PortMate.onPane paneId edit)).Perm
        ((edit pane).toList ++ rest) := by
      refine (perm.filterMap _).trans ?_
      rw [filterMap_cons, filterMap_onPane_rest others]
      unfold PortMate.onPane
      rw [if_pos named]
      cases edit pane <;> exact .refl _
    have ids : ∀ id ∈ (root.leaves.filterMap (PortMate.onPane paneId edit)).map (·.id),
        id ∈ root.leaves.map (·.id) := by
      intro id mem
      rw [(left.map WorkspacePane.id).mem_iff, map_append, mem_append] at mem
      rw [(perm.map WorkspacePane.id).mem_iff, map_cons, mem_cons]
      rcases mem with here | mem
      · obtain ⟨kept, got, rfl⟩ := mem_map.mp here
        have known := edited pane there named kept (mem_toList.mp got)
        exact Or.inl (known.1.trans named.symm)
      · exact Or.inr mem
    refine inv.editPanes (PanesInvariant.perm ?_ left.symm) ids
    have before := panes.perm perm
    refine @PanesInvariant.replace [pane] (edit pane).toList rest before ?_ ?_ ?_ ?_ ?_ ?_
    · cases edit pane with
      | none => exact nodup_nil
      | some kept => exact nodup_singleton _
    · intro id mem
      obtain ⟨kept, got, rfl⟩ := mem_map.mp mem
      have known := edited pane there named kept (mem_toList.mp got)
      exact Or.inl (mem_singleton.mpr (known.1.trans named.symm))
    · cases got : edit pane with
      | none => exact nodup_nil
      | some kept =>
        have known := edited pane there named kept got
        change (kept.views.map WorkspaceView.id ++ []).Nodup
        rw [append_nil]
        exact known.2.1
    · intro id mem
      obtain ⟨kept, got, inViews⟩ := mem_flatMap.mp mem
      have known := edited pane there named kept (mem_toList.mp got)
      refine Or.inl ?_
      rw [viewIdsOf_cons]
      exact mem_append_left _ (known.2.2.1 id inViews)
    · intro kept mem
      exact (edited pane there named kept (mem_toList.mp mem)).2.2.2
    · have room := before.count
      have one : (edit pane).toList.length ≤ 1 := by cases edit pane <;> simp
      rw [length_cons] at room
      omega

end PaneEdits

end PortMate
