import PortMate.WorkspaceEdits

namespace PortMate

open List Option Or WorkspaceNode

section TwoPanes

theorem exists_perm_of_find_two {panes : List WorkspacePane} (ids : (panes.map (·.id)).Nodup)
    {sourceId targetId : JsString} (distinct : sourceId ≠ targetId) {source target : WorkspacePane}
    (foundSource : panes.find? (fun pane => pane.id = sourceId) = some source)
    (foundTarget : panes.find? (fun pane => pane.id = targetId) = some target) :
    source.id = sourceId ∧ target.id = targetId ∧ ∃ rest,
      panes.Perm (source :: target :: rest) ∧ (∀ other ∈ rest, other.id ≠ sourceId) ∧
        ∀ other ∈ rest, other.id ≠ targetId := by
  obtain ⟨sourceNamed, rest, perm, others⟩ := exists_perm_of_find ids foundSource
  obtain ⟨targetNamed, more, again, apart⟩ := exists_perm_of_find ids foundTarget
  have mem : target ∈ rest := by
    have there := perm.subset (mem_of_find?_eq_some foundTarget)
    rcases mem_cons.mp there with same | later
    · subst same
      exact absurd (sourceNamed.symm.trans targetNamed) distinct
    · exact later
  have split := perm_cons_erase mem
  have whole := perm.trans (split.cons source)
  refine ⟨sourceNamed, targetNamed, rest.erase target, whole, fun other there => ?_,
    fun other there => ?_⟩
  · exact others other (mem_of_mem_erase there)
  · have nodup := ((whole.trans (.swap _ _ _)).map (·.id)).nodup_iff.mp ids
    rw [map_cons, nodup_cons] at nodup
    intro same
    refine nodup.1 (mem_map.mpr ⟨other, .tail _ there, same.trans targetNamed.symm⟩)

theorem filterMap_two {edit : WorkspacePane → Option WorkspacePane}
    {panes rest : List WorkspacePane} {source target : WorkspacePane}
    (perm : panes.Perm (source :: target :: rest)) {first second : Option WorkspacePane}
    (sourceEdit : edit source = first) (targetEdit : edit target = second)
    (kept : ∀ other ∈ rest, edit other = some other) :
    (panes.filterMap edit).Perm (first.toList ++ (second.toList ++ rest)) := by
  subst sourceEdit targetEdit
  refine (perm.filterMap edit).trans ?_
  rw [filterMap_cons, filterMap_cons, filterMap_kept kept]
  cases edit source <;> cases edit target <;> exact .refl _

variable {root : WorkspaceNode}

theorem editPanes_replaced {edit : WorkspacePane → Option WorkspacePane}
    {old new rest : List WorkspacePane} (inv : WorkspaceInvariant (some root))
    (perm : root.leaves.Perm (old ++ rest))
    (edited : (root.leaves.filterMap edit).Perm (new ++ rest)) (panes : PanesInvariant (new ++ rest))
    (ids : ∀ id ∈ new.map (·.id), id ∈ old.map (·.id)) (same : SameViews new old) :
    WorkspaceInvariant (root.editPanes edit) ∧
      SameViews (workspacePaneLeaves (root.editPanes edit)) root.leaves := by
  constructor
  · refine inv.editPanes (panes.perm edited.symm) fun id mem => ?_
    rw [(edited.map WorkspacePane.id).mem_iff, map_append, mem_append] at mem
    rw [(perm.map WorkspacePane.id).mem_iff, map_append, mem_append]
    exact mem.imp_left (ids id)
  · rw [leaves_editPanes]
    exact (SameViews.of_perm edited).trans (same.append_right.trans (SameViews.of_perm perm.symm))

theorem swapWorkspacePanes_spec (inv : WorkspaceInvariant (some root))
    (firstPaneId secondPaneId : JsString) :
    WorkspaceInvariant (swapWorkspacePanes (some root) firstPaneId secondPaneId) ∧
      SameViews (workspacePaneLeaves (swapWorkspacePanes (some root) firstPaneId secondPaneId))
        root.leaves := by
  have unchanged : WorkspaceInvariant (some root) ∧
      SameViews (workspacePaneLeaves (some root)) root.leaves := ⟨inv, .refl _⟩
  unfold swapWorkspacePanes
  split
  next => exact unchanged
  next distinct =>
    split
    next first second foundFirst foundSecond =>
      obtain ⟨firstNamed, secondNamed, rest, perm, others, apart⟩ :=
        exists_perm_of_find_two inv.panes.ids distinct foundFirst foundSecond
      have differ : second.id ≠ first.id := by
        rw [firstNamed, secondNamed]
        exact Ne.symm distinct
      have swapped := @filterMap_two (fun pane =>
          if pane.id = first.id then some second
          else if pane.id = second.id then some first
          else some pane) _ _ _ _ perm (some second) (some first) (if_pos rfl)
        ((if_neg differ).trans (if_pos rfl)) fun other mem => by
          rw [if_neg (firstNamed ▸ others other mem), if_neg (secondNamed ▸ apart other mem)]
      exact @editPanes_replaced _ _ [first, second] [second, first] rest inv perm swapped
        ((inv.panes.perm perm).perm (.swap _ _ _)) (fun id => (List.Perm.swap _ _ _).mem_iff.mp)
        (SameViews.of_perm (.swap _ _ _))
    next => exact unchanged

theorem mergeWorkspacePaneGroups_spec (inv : WorkspaceInvariant (some root))
    (sourcePaneId targetPaneId : JsString) :
    WorkspaceInvariant (mergeWorkspacePaneGroups (some root) sourcePaneId targetPaneId) ∧
      SameViews
        (workspacePaneLeaves (mergeWorkspacePaneGroups (some root) sourcePaneId targetPaneId))
        root.leaves := by
  have unchanged : WorkspaceInvariant (some root) ∧
      SameViews (workspacePaneLeaves (some root)) root.leaves := ⟨inv, .refl _⟩
  unfold mergeWorkspacePaneGroups
  split
  next => exact unchanged
  next distinct =>
    split
    next source target foundSource foundTarget =>
      dsimp only
      split
      next => exact unchanged
      next room =>
        obtain ⟨sourceNamed, targetNamed, rest, perm, others, apart⟩ :=
          exists_perm_of_find_two inv.panes.ids distinct foundSource foundTarget
        have before := inv.panes.perm perm
        have active := (before.each target (.tail _ (.head _))).activeView
        have filled : target.views ++ source.views ≠ [] := by
          intro empty
          rw [(append_eq_nil_iff.mp empty).1] at active
          cases active
        obtain ⟨joined, made, id, views, invariant⟩ := @createWorkspacePaneFromViews_spec target.id
          source.activeViewId (target.views ++ source.views) filled (Nat.le_of_not_lt room)
        have differ : target.id ≠ sourcePaneId := by
          rw [targetNamed]
          exact Ne.symm distinct
        have merged := @filterMap_two (fun pane =>
            if pane.id = sourcePaneId then none
            else if pane.id = targetPaneId then
              createWorkspacePaneFromViews pane.id (target.views ++ source.views)
                source.activeViewId
            else some pane) _ _ _ _ perm none (some joined) (if_pos sourceNamed)
          ((if_neg differ).trans ((if_pos targetNamed).trans made)) fun other mem => by
            rw [if_neg (others other mem), if_neg (apart other mem)]
        have ids : ∀ paneId ∈ [joined].map (·.id), paneId ∈ [source, target].map (·.id) := by
          intro paneId mem
          rw [map_singleton, mem_singleton, id] at mem
          rw [mem]
          exact .tail _ (.head _)
        have viewIds : (viewIdsOf [joined]).Perm (viewIdsOf [source, target]) := by
          rw [viewIdsOf_cons, views, normalizeView_ids, map_append]
          change (_ ++ []).Perm (_ ++ (_ ++ []))
          rw [append_nil, append_nil]
          exact perm_append_comm
        have same : SameViews [joined] [source, target] := by
          change ((joined.views ++ []).map normalizeView).Perm
            ((source.views ++ (target.views ++ [])).map normalizeView)
          rw [append_nil, append_nil, views, normalizeViews_idem]
          exact perm_append_comm.map _
        refine @editPanes_replaced _ _ [source, target] [joined] rest inv perm merged ?_ ids same
        have oldViews := before.viewIds
        have count := before.count
        rw [length_cons, length_cons] at count
        refine @PanesInvariant.replace [source, target] [joined] rest before
          (nodup_singleton _) (fun paneId mem => inl (ids paneId mem)) ?_
          (fun viewId mem => inl (viewIds.subset mem)) ?_ ?_
        · rw [viewIds.nodup_iff]
          exact (nodup_append.mp (viewIdsOf_append [source, target] rest ▸ oldViews)).1
        · intro pane mem
          rwa [mem_singleton.mp mem]
        · rw [length_singleton]
          omega
    next => exact unchanged

end TwoPanes

section Insert

variable {paneId : JsString} {view : WorkspaceView} {index : Option Int}

theorem insertView_of_not_mem {node : WorkspaceNode} (missing : ∀ pane ∈ node.leaves, pane.id ≠ paneId) :
    node.insertView paneId view index = node := by
  induction node with
  | pane leaf =>
    unfold insertView
    rw [if_neg (missing leaf (.head _))]
  | split id direction ratio first second ihFirst ihSecond =>
    unfold insertView
    rw [ihFirst fun pane mem => missing pane (mem_append_left _ mem),
      ihSecond fun pane mem => missing pane (mem_append_right _ mem)]
    simp

theorem leaves_insertView {node : WorkspaceNode} (ids : (node.leaves.map (·.id)).Nodup)
    (fresh : view.id ∉ viewIdsOf node.leaves) :
    (node.insertView paneId view index).leaves = node.leaves.map fun pane =>
      if pane.id = paneId then insertPaneView view index pane else pane := by
  induction node with
  | pane leaf => rfl
  | split id direction ratio first second ihFirst ihSecond =>
    change (List.map _ (first.leaves ++ second.leaves)).Nodup at ids
    rw [map_append, nodup_append] at ids
    change view.id ∉ viewIdsOf (first.leaves ++ second.leaves) at fresh
    rw [viewIdsOf_append, mem_append, not_or] at fresh
    have none : view.id ∉ (first.leaves ++ second.leaves).flatMap fun pane =>
        pane.views.map (·.id) := by
      rw [flatMap_append, mem_append, not_or]
      exact fresh
    unfold insertView
    rw [if_neg none]
    dsimp only
    change _ = List.map _ (first.leaves ++ second.leaves)
    rw [map_append, ← ihFirst ids.1 fresh.1, ← ihSecond ids.2.1 fresh.2]
    split
    next same =>
      change first.leaves ++ _ = _
      rw [same]
    next changed =>
      -- The pane is in the first half, so that the second one has no pane with its id.
      have absent : ∀ pane ∈ second.leaves, pane.id ≠ paneId := by
        intro other there named
        refine changed (insertView_of_not_mem fun pane mem same => ?_)
        exact ids.2.2 pane.id (mem_map.mpr ⟨pane, mem, rfl⟩) other.id
          (mem_map.mpr ⟨other, there, rfl⟩) (same.trans named.symm)
      rw [insertView_of_not_mem absent]
      rfl

theorem splits_insertView (node : WorkspaceNode) :
    (node.insertView paneId view index).splits = node.splits ∧
      (node.insertView paneId view index).height = node.height := by
  induction node with
  | pane leaf => exact ⟨rfl, rfl⟩
  | split id direction ratio first second ihFirst ihSecond =>
    unfold insertView
    split
    · exact ⟨rfl, rfl⟩
    · dsimp only
      split
      · simp only [WorkspaceNode.splits, WorkspaceNode.height, ihSecond, and_self]
      · simp only [WorkspaceNode.splits, WorkspaceNode.height, ihFirst, and_self]

theorem insertPaneView_spec {pane : WorkspacePane} (room : pane.views.length < maxWorkspaceGroupTabs)
    (fresh : view.id ∉ pane.views.map (·.id)) :
    ∃ views : List WorkspaceView, MadeOf pane (insertPaneView view index pane) views ∧
      views.Perm (view :: pane.views) := by
  unfold insertPaneView
  rw [if_neg (not_or.mpr ⟨Nat.not_le_of_lt room, fresh⟩)]
  have inserted := perm_insertIdx view pane.views
    (Nat.min_le_left pane.views.length (index.getD pane.views.length).toNat)
  have short := inserted.length_eq
  rw [length_cons] at short
  have filled := ne_nil_of_mem (inserted.symm.subset mem_cons_self)
  obtain ⟨left, made, -⟩ := @createWorkspacePaneFromViews_spec pane.id view.id
    (pane.views.insertIdx (insertionIndex index pane.views.length) view) filled
    (by unfold insertionIndex; omega)
  rw [made]
  refine ⟨_, madeOf_of_eq ?_ made, inserted⟩
  unfold insertionIndex
  omega

theorem paneEdited_spec {node after : WorkspaceNode} (inv : WorkspaceInvariant (some node))
    {target : WorkspacePane} {edit : WorkspacePane → WorkspacePane} {views : List WorkspaceView}
    (found : node.leaves.find? (fun pane => pane.id = paneId) = some target)
    (leaves : after.leaves = node.leaves.map fun pane => if pane.id = paneId then edit pane else pane)
    (splits : after.splits = node.splits) (height : after.height = node.height)
    (made : MadeOf target (edit target) views) (nodup : (views.map (·.id)).Nodup)
    (ids : ∀ id ∈ views.map (·.id), id ∈ target.views.map (·.id) ∨ id ∉ viewIdsOf node.leaves) :
    WorkspaceInvariant (some after) ∧ ∃ rest, node.leaves.Perm (target :: rest) ∧
      after.leaves.Perm (edit target :: rest) := by
  have panes : PanesInvariant node.leaves := inv.panes
  obtain ⟨named, rest, perm, others⟩ := exists_perm_of_find panes.ids found
  have before := panes.perm perm
  have edited : after.leaves.Perm ([edit target] ++ rest) := by
    rw [leaves]
    refine (perm.map _).trans ?_
    rw [map_cons, if_pos named]
    refine List.Perm.of_eq (congrArg _ ?_)
    exact (map_congr_left fun other mem => if_neg (others other mem)).trans (map_id rest)
  have viewIds : viewIdsOf [edit target] = views.map (·.id) := by
    rw [viewIdsOf_cons, made.views, normalizeView_ids]
    exact append_nil _
  have kept : PanesInvariant ([edit target] ++ rest) := by
    have count := before.count
    rw [length_cons] at count
    refine @PanesInvariant.replace [target] _ rest before (nodup_singleton _) ?_ ?_ ?_ ?_
      (by rw [length_singleton]; omega)
    · intro id mem
      rw [map_singleton, made.id] at mem
      exact inl mem
    · rw [viewIds]
      exact nodup
    · intro id mem
      rw [viewIds] at mem
      rcases ids id mem with old | new
      · exact inl (mem_append_left _ old)
      · refine inr fun there => new ?_
        exact (perm.symm.flatMap_right fun pane => pane.views.map (·.id)).subset
          (mem_append_right _ there)
    · intro pane mem
      rw [mem_singleton.mp mem]
      exact made.invariant
  refine ⟨⟨kept.perm edited.symm, ?_, ?_, ?_, ?_⟩, rest, perm, edited⟩
  · change (after.splits.map (·.1)).Nodup
    rw [splits]
    exact inv.splitIds
  · intro id mem
    change id ∉ after.splits.map (·.1)
    rw [splits]
    refine inv.apart id ?_
    have there := (edited.map WorkspacePane.id).subset mem
    rw [map_append, map_singleton, made.id] at there
    exact (perm.map WorkspacePane.id).symm.subset there
  · change after.height ≤ _
    rw [height]
    exact inv.depth
  · intro split mem
    change split ∈ after.splits at mem
    rw [splits] at mem
    exact inv.ratios split mem

theorem viewShown_spec {node after : WorkspaceNode} (inv : WorkspaceInvariant (some node))
    (fresh : view.id ∉ viewIdsOf node.leaves) {target : WorkspacePane}
    {edit : WorkspacePane → WorkspacePane} {views old rest : List WorkspaceView}
    (found : node.leaves.find? (fun pane => pane.id = paneId) = some target)
    (leaves : after.leaves = node.leaves.map fun pane => if pane.id = paneId then edit pane else pane)
    (splits : after.splits = node.splits) (height : after.height = node.height)
    (made : MadeOf target (edit target) views) (shown : views.Perm (view :: rest))
    (before : target.views.Perm (old ++ rest)) :
    WorkspaceInvariant (some after) ∧ edit target ∈ after.leaves ∧
      ((old ++ viewsOf after.leaves).map normalizeView).Perm
        ((view :: viewsOf node.leaves).map normalizeView) := by
  have panes : PanesInvariant node.leaves := inv.panes
  have there := mem_of_find?_eq_some found
  have sub : ∀ id ∈ rest.map (·.id), id ∈ target.views.map (·.id) := by
    intro id mem
    refine (before.map WorkspaceView.id).symm.subset ?_
    rw [map_append]
    exact mem_append_right _ mem
  have unseen : view.id ∉ target.views.map (·.id) := fun mem =>
    fresh (mem_flatMap.mpr ⟨target, there, mem⟩)
  have ids := shown.map WorkspaceView.id
  obtain ⟨valid, others, perm, edited⟩ := paneEdited_spec inv found leaves splits height made (by
    have nodup := (before.map WorkspaceView.id).nodup_iff.mp (viewIdsOf_nodup panes.viewIds there)
    rw [map_append, nodup_append] at nodup
    rw [ids.nodup_iff, map_cons, nodup_cons]
    exact ⟨fun mem => unseen (sub _ mem), nodup.2.1⟩) (by
    intro id mem
    rcases mem_cons.mp (ids.subset mem) with rfl | kept
    · exact inr fresh
    · exact inl (sub id kept))
  refine ⟨valid, edited.symm.subset (.head _), ?_⟩
  refine (((viewsOf_perm edited).append_left old).map normalizeView).trans (List.Perm.trans ?_
    (((viewsOf_perm perm).symm.cons view).map normalizeView))
  change ((old ++ ((edit target).views ++ viewsOf others)).map normalizeView).Perm
    ((view :: (target.views ++ viewsOf others)).map normalizeView)
  rw [map_append, map_append, made.views, normalizeViews_idem, map_cons,
    map_append, ← append_assoc, ← cons_append]
  refine List.Perm.append_right _ ?_
  -- The old views and those shown now are the new view and the ones before.
  rw [← map_append, ← map_cons]
  refine List.Perm.map normalizeView ?_
  exact (shown.append_left old).trans (perm_middle.trans (before.symm.cons view))

theorem insertView_spec {node : WorkspaceNode} (inv : WorkspaceInvariant (some node))
    (fresh : view.id ∉ viewIdsOf node.leaves) {target : WorkspacePane}
    (found : node.leaves.find? (fun pane => pane.id = paneId) = some target)
    (room : target.views.length < maxWorkspaceGroupTabs) :
    WorkspaceInvariant (some (node.insertView paneId view index)) ∧
      insertPaneView view index target ∈ (node.insertView paneId view index).leaves ∧
      ((viewsOf (node.insertView paneId view index).leaves).map normalizeView).Perm
        ((view :: viewsOf node.leaves).map normalizeView) := by
  have panes : PanesInvariant node.leaves := inv.panes
  have unseen : view.id ∉ target.views.map (·.id) := fun mem =>
    fresh (mem_flatMap.mpr ⟨target, mem_of_find?_eq_some found, mem⟩)
  obtain ⟨views, made, shown⟩ := @insertPaneView_spec view index target room unseen
  have same := @splits_insertView paneId view index node
  exact @viewShown_spec paneId view node _ inv fresh target (insertPaneView view index) views [] _
    found (leaves_insertView panes.ids fresh) same.1 same.2 made shown (.refl _)

end Insert

section Move

variable {root : WorkspaceNode}

/-- What a workspace is without one view of one pane. -/
structure ViewRemoved (root : WorkspaceNode) (source : WorkspacePane) (view : WorkspaceView)
    (after : Option WorkspaceNode) : Prop where
  invariant : WorkspaceInvariant after
  gone : view.id ∉ viewIdsOf (workspacePaneLeaves after)
  views : ((view :: viewsOf (workspacePaneLeaves after)).map normalizeView).Perm
    ((viewsOf root.leaves).map normalizeView)
  others : ∀ pane ∈ root.leaves, pane.id ≠ source.id → pane ∈ workspacePaneLeaves after
  stays : 1 < source.views.length → source.id ∈ (workspacePaneLeaves after).map (·.id)
  count : (workspacePaneLeaves after).length + (if 1 < source.views.length then 0 else 1) =
    root.leaves.length
  ids : ∀ id ∈ (workspacePaneLeaves after).map (·.id), id ∈ root.leaves.map (·.id)
  splits : ∀ id ∈ (workspaceSplits after).map (·.1), id ∈ root.splits.map (·.1)

theorem removeWorkspacePaneView_spec (inv : WorkspaceInvariant (some root)) {paneId viewId : JsString}
    {source : WorkspacePane} {view : WorkspaceView}
    (found : root.leaves.find? (fun pane => pane.id = paneId) = some source)
    (shown : source.views.find? (fun view => view.id = viewId) = some view) :
    ViewRemoved root source view (removeWorkspacePaneView (some root) paneId viewId) := by
  have panes : PanesInvariant root.leaves := inv.panes
  have mem := mem_of_find?_eq_some shown
  have named : view.id = viewId := by simpa using find?_some shown
  subst named
  obtain ⟨rfl, rest, perm, others⟩ := exists_perm_of_find panes.ids found
  have before := panes.perm perm
  have sourceIds := viewIdsOf_nodup before.viewIds (.head _)
  have apart : view.id ∉ viewIdsOf rest := by
    have nodup := before.viewIds
    rw [viewIdsOf_cons, nodup_append] at nodup
    exact fun there => nodup.2.2 view.id (mem_map.mpr ⟨view, mem, rfl⟩) view.id there rfl
  have split := perm_cons_others sourceIds mem
  have edited : (workspacePaneLeaves (removeWorkspacePaneView (some root) source.id view.id)).Perm
      ((removePaneView view.id source).toList ++ rest) := by
    unfold removeWorkspacePaneView
    rw [bind_some, leaves_editPanes]
    refine (perm.filterMap _).trans ?_
    have here : onPane source.id (removePaneView view.id) source = removePaneView view.id source :=
      if_pos rfl
    rw [filterMap_cons, here, filterMap_onPane_rest others]
    cases removePaneView view.id source <;> exact .refl _
  have length := edited.length_eq
  have whole := perm.length_eq
  have views := (viewsOf_perm perm).symm.map normalizeView
  have left : ∀ pane ∈ root.leaves, pane.id ≠ source.id → pane ∈
      workspacePaneLeaves (removeWorkspacePaneView (some root) source.id view.id) := by
    intro pane there other
    refine edited.symm.subset (mem_append_right _ ?_)
    rcases mem_cons.mp (perm.subset there) with rfl | later
    · exact absurd rfl other
    · exact later
  have splits : ∀ id ∈ (workspaceSplits
      (removeWorkspacePaneView (some root) source.id view.id)).map (·.1),
      id ∈ root.splits.map (·.1) :=
    fun id there => ((splits_editPanes root).map _).subset there
  have invariant := removeWorkspacePaneView_invariant inv source.id view.id
  rcases removePaneView_of_mem (before.each source (.head _))
      (mem_map.mpr ⟨view, mem, rfl⟩) with ⟨removed, none⟩ | ⟨kept, removed, made⟩
  · rw [none] at split
    rw [removed] at edited length
    have one := split.length_eq
    rw [length_singleton] at one
    refine ⟨invariant, ?_, ?_, left, fun more => by omega, ?_, fun id there => ?_, splits⟩
    · exact fun there => apart ((edited.flatMap_right _).subset there)
    · refine (((viewsOf_perm edited).cons view).map normalizeView).trans (List.Perm.trans ?_ views)
      change ((view :: viewsOf rest).map normalizeView).Perm
        ((source.views ++ viewsOf rest).map normalizeView)
      exact (split.symm.append_right (viewsOf rest)).map normalizeView
    · rw [toList_none, nil_append] at length
      rw [length_cons] at whole
      rw [if_neg (by omega)]
      omega
    · exact (perm.map WorkspacePane.id).symm.subset
        (.tail _ ((edited.map WorkspacePane.id).subset there))
  · rw [removed] at edited length
    have ids : kept.views.map (·.id) =
        (source.views.filter fun other => other.id ≠ view.id).map (·.id) := by
      rw [made.views, normalizeView_ids]
    have filled : 0 < kept.views.length := by
      obtain ⟨active, there, -⟩ := mem_map.mp made.invariant.activeView
      exact length_pos_of_mem there
    have more : 1 < source.views.length := by
      have longer := split.length_eq
      rw [made.views, length_map] at filled
      rw [length_cons] at longer
      omega
    refine ⟨invariant, ?_, ?_, left, fun _ => ?_, ?_, fun id there => ?_, splits⟩
    · intro there
      have inKept := (edited.flatMap_right fun pane => pane.views.map (·.id)).subset there
      rcases mem_append.mp inKept with here | later
      · change view.id ∈ kept.views.map (·.id) at here
        rw [ids] at here
        obtain ⟨other, filtered, same⟩ := mem_map.mp here
        simp [same] at filtered
      · exact apart later
    · refine (((viewsOf_perm edited).cons view).map normalizeView).trans (List.Perm.trans ?_ views)
      change ((view :: (kept.views ++ viewsOf rest)).map normalizeView).Perm
        ((source.views ++ viewsOf rest).map normalizeView)
      rw [← cons_append, map_append, map_append, map_cons, made.views,
        normalizeViews_idem, ← map_cons]
      exact (split.symm.map normalizeView).append_right _
    · refine (edited.map WorkspacePane.id).symm.subset ?_
      rw [← made.id]
      exact .head _
    · rw [toList_some, singleton_append, length_cons] at length
      rw [length_cons] at whole
      rw [if_pos more]
      omega
    · have known := (edited.map WorkspacePane.id).subset there
      rw [toList_some, singleton_append, map_cons, made.id] at known
      exact (perm.map WorkspacePane.id).symm.subset known

theorem find_of_mem {α : Type} {key : α → JsString} {items : List α} (keys : (items.map key).Nodup)
    {item : α} (mem : item ∈ items) :
    items.find? (fun other => key other = key item) = some item := by
  cases found : items.find? fun other => key other = key item with
  | none => simpa using find?_eq_none.mp found item mem
  | some other =>
    have same : key other = key item := by simpa using find?_some found
    exact congrArg some (inj_on_of_nodup_map keys (mem_of_find?_eq_some found) mem same)

theorem moveWorkspacePaneView_spec (inv : WorkspaceInvariant (some root))
    (sourcePaneId targetPaneId viewId : JsString) (targetIndex : Option Int) :
    WorkspaceInvariant
        (moveWorkspacePaneView (some root) sourcePaneId targetPaneId viewId targetIndex) ∧
      SameViews (workspacePaneLeaves
        (moveWorkspacePaneView (some root) sourcePaneId targetPaneId viewId targetIndex))
        root.leaves := by
  have unchanged : WorkspaceInvariant (some root) ∧
      SameViews (workspacePaneLeaves (some root)) root.leaves := ⟨inv, .refl _⟩
  unfold moveWorkspacePaneView
  split
  next source target foundSource foundTarget =>
    split
    next => exact unchanged
    next view shown =>
      split
      next =>
        exact onPane_reshown inv fun pane mem _ => reorderPaneView_spec (inv.panes.each pane mem)
          (viewIdsOf_nodup inv.panes.viewIds mem) viewId targetIndex
      next distinct =>
        split
        · exact unchanged
        · split
          next => exact unchanged
          next room =>
            have removed := removeWorkspacePaneView_spec inv foundSource shown
            have sourceNamed : source.id = sourcePaneId := by
              simpa using find?_some foundSource
            have targetNamed : target.id = targetPaneId := by
              simpa using find?_some foundTarget
            have there := removed.others target (mem_of_find?_eq_some foundTarget) fun same =>
              distinct (sourceNamed.symm.trans (same.symm.trans targetNamed))
            split
            next none =>
              rw [none] at there
              cases there
            next node left =>
              rw [left] at removed there
              have found := find_of_mem removed.invariant.panes.ids there
              rw [targetNamed] at found
              obtain ⟨after, -, views⟩ := @insertView_spec targetPaneId view targetIndex node
                removed.invariant removed.gone target found (Nat.lt_of_not_le room)
              exact ⟨after, views.trans removed.views⟩
  next => exact unchanged

theorem SameViews.ids {panes others : List WorkspacePane} (same : SameViews panes others) :
    (viewIdsOf panes).Perm (viewIdsOf others) := by
  have ids := same.map (·.id)
  rw [normalizeView_ids, normalizeView_ids] at ids
  unfold viewsOf at ids
  rw [map_flatMap, map_flatMap] at ids
  exact ids

/-- A view of a pane that is activated is the active one. -/
theorem activateWorkspacePaneView_activates (inv : WorkspaceInvariant (some root))
    {target : WorkspacePane} {view : WorkspaceView} (mem : target ∈ root.leaves)
    (shown : view ∈ target.views) :
    ∃ pane, findWorkspacePane (activateWorkspacePaneView (some root) target.id view.id) target.id =
      some pane ∧ pane.activeViewId = view.id := by
  obtain ⟨after, -⟩ := activateWorkspacePaneView_spec inv target.id view.id
  unfold activateWorkspacePaneView at after ⊢
  rw [bind_some] at after ⊢
  have edited : ∃ pane, onPane target.id (fun pane =>
      if pane.activeViewId = view.id ∨ view.id ∉ pane.views.map (·.id) then some pane
      else createWorkspacePaneFromViews pane.id pane.views view.id) target = some pane ∧
        pane.id = target.id ∧ pane.activeViewId = view.id := by
    rw [onPane, if_pos rfl]
    split
    next active =>
      exact ⟨target, rfl, rfl,
        active.resolve_right fun absent => absent (mem_map.mpr ⟨view, shown, rfl⟩)⟩
    next => exact createWorkspacePaneFromViews_activates (inv.panes.each target mem).viewCount shown
  obtain ⟨pane, made, named, active⟩ := edited
  refine ⟨pane, ?_, active⟩
  have there := mem_filterMap.mpr ⟨target, mem, made⟩
  rw [← leaves_editPanes] at there
  exact named ▸ find_of_mem after.panes.ids there

/-- The pane that shows the session already has its view activated, and the source's goes. -/
structure SessionJoined (root : WorkspaceNode) (sourcePaneId targetPaneId sessionId : JsString)
    (after : Option WorkspaceNode) : Prop where
  apart : sourcePaneId ≠ targetPaneId
  joined : ∃ source target view existing pane,
    findWorkspacePane (some root) sourcePaneId = some source ∧
    source.views.find? (fun view => view.sessionId = sessionId) = some view ∧
    findWorkspacePane (some root) targetPaneId = some target ∧
    target.views.find? (fun view => view.sessionId = sessionId) = some existing ∧
    view.id ∉ viewIdsOf (workspacePaneLeaves after) ∧
    ((view :: viewsOf (workspacePaneLeaves after)).map normalizeView).Perm
      ((viewsOf root.leaves).map normalizeView) ∧
    findWorkspacePane after targetPaneId = some pane ∧ pane.activeViewId = existing.id

/-- One of the panes does not show the session, or they are one. -/
def NotBothShow (root : WorkspaceNode) (sourcePaneId targetPaneId sessionId : JsString) : Prop :=
  sourcePaneId = targetPaneId ∨ ∃ paneId ∈ [sourcePaneId, targetPaneId], ∀ pane,
    findWorkspacePane (some root) paneId = some pane →
      pane.views.find? (fun view => view.sessionId = sessionId) = none

theorem moveWorkspacePaneSession_spec (inv : WorkspaceInvariant (some root))
    (sourcePaneId targetPaneId sessionId : JsString) :
    WorkspaceInvariant (moveWorkspacePaneSession (some root) sourcePaneId targetPaneId sessionId) ∧
      (NotBothShow root sourcePaneId targetPaneId sessionId ∧ SameViews (workspacePaneLeaves
          (moveWorkspacePaneSession (some root) sourcePaneId targetPaneId sessionId)) root.leaves ∨
        SessionJoined root sourcePaneId targetPaneId sessionId
          (moveWorkspacePaneSession (some root) sourcePaneId targetPaneId sessionId)) := by
  have unchanged : SameViews (workspacePaneLeaves (some root)) root.leaves := .refl _
  unfold moveWorkspacePaneSession
  split
  next same => exact ⟨inv, inl ⟨inl same, unchanged⟩⟩
  next apart =>
    split
    next source target foundSource foundTarget =>
      split
      next missing =>
        refine ⟨inv, inl ⟨inr ⟨sourcePaneId, .head _, fun pane found => ?_⟩, unchanged⟩⟩
        cases foundSource.symm.trans found
        exact missing
      next view shown =>
        split
        next existing already =>
          have ids := viewIdsOf_nodup inv.panes.viewIds (mem_of_find?_eq_some foundSource)
          have removed := removeWorkspacePaneView_spec inv foundSource
            (find_of_mem ids (mem_of_find?_eq_some shown))
          have sourceNamed : source.id = sourcePaneId := by simpa using find?_some foundSource
          obtain rfl : target.id = targetPaneId := by simpa using find?_some foundTarget
          have there := removed.others target (mem_of_find?_eq_some foundTarget) fun same =>
            apart (sourceNamed.symm.trans same.symm)
          cases left : removeWorkspacePaneView (some root) sourcePaneId view.id with
          | none =>
            rw [left] at there
            cases there
          | some node =>
            rw [left] at removed there
            obtain ⟨after, same⟩ := activateWorkspacePaneView_spec removed.invariant target.id
              existing.id
            obtain ⟨pane, here, active⟩ := activateWorkspacePaneView_activates removed.invariant there
              (mem_of_find?_eq_some already)
            refine ⟨after, inr ⟨apart, source, target, view, existing, pane, foundSource, shown,
              foundTarget, already, ?_, (same.cons (normalizeView view)).trans removed.views, here,
              active⟩⟩
            exact fun still => removed.gone (same.ids.subset still)
        next missing =>
          obtain ⟨after, same⟩ := moveWorkspacePaneView_spec inv sourcePaneId targetPaneId view.id none
          refine ⟨after, inl ⟨inr ⟨targetPaneId, .tail _ (.head _), fun pane found => ?_⟩,
            same⟩⟩
          cases foundTarget.symm.trans found
          exact missing
    next gone =>
      refine ⟨inv, inl ⟨inr ?_, unchanged⟩⟩
      cases foundSource : findWorkspacePane (some root) sourcePaneId with
      | none => exact ⟨sourcePaneId, .head _, fun pane found => nomatch foundSource.symm.trans found⟩
      | some source =>
        exact ⟨targetPaneId, .tail _ (.head _), fun pane found => (gone _ _ foundSource found).elim⟩

end Move

end PortMate
