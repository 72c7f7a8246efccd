import PortMate.WorkspaceInvariants

namespace PortMate

open List Or

def viewsOf (panes : List WorkspacePane) : List WorkspaceView := panes.flatMap (·.views)

def workspaceViews (root : Option WorkspaceNode) : List WorkspaceView :=
  viewsOf (workspacePaneLeaves root)

/-- The same views, whatever their order and panes; their colours are compared in normal form. -/
def SameViews (panes others : List WorkspacePane) : Prop :=
  ((viewsOf panes).map normalizeView).Perm ((viewsOf others).map normalizeView)

section Views

theorem viewsOf_append (panes others : List WorkspacePane) :
    viewsOf (panes ++ others) = viewsOf panes ++ viewsOf others := flatMap_append

theorem viewsOf_perm {panes others : List WorkspacePane} (perm : panes.Perm others) :
    (viewsOf panes).Perm (viewsOf others) := perm.flatMap_right _

theorem SameViews.of_perm {panes others : List WorkspacePane} (perm : panes.Perm others) :
    SameViews panes others := (viewsOf_perm perm).map _

theorem SameViews.append_right {panes others rest : List WorkspacePane}
    (same : SameViews panes others) : SameViews (panes ++ rest) (others ++ rest) := by
  unfold SameViews
  rw [viewsOf_append, viewsOf_append, map_append, map_append]
  exact List.Perm.append_right _ same

variable (views : List WorkspaceView)

theorem normalizeView_ids : (views.map normalizeView).map (·.id) = views.map (·.id) := by
  rw [map_map]
  rfl

theorem normalizeViews_idem :
    (views.map normalizeView).map normalizeView = views.map normalizeView := by
  rw [map_map]
  exact map_congr_left fun view _ => normalizeView_idem view

theorem viewIdsOf_nodup {panes : List WorkspacePane} (nodup : (viewIdsOf panes).Nodup)
    {pane : WorkspacePane} (mem : pane ∈ panes) : (pane.views.map (·.id)).Nodup :=
  (nodup_flatMap.mp nodup).1 pane mem

/-- What a pane leaves that is made anew of some of its views. -/
structure MadeOf (pane left : WorkspacePane) (views : List WorkspaceView) : Prop where
  id : left.id = pane.id
  views : left.views = views.map normalizeView
  invariant : PaneInvariant left

theorem madeOf_of_eq {pane left : WorkspacePane} {views : List WorkspaceView}
    {activeViewId : JsString} (room : views.length ≤ maxWorkspaceGroupTabs)
    (made : createWorkspacePaneFromViews pane.id views activeViewId = some left) :
    MadeOf pane left views := by
  have filled : views ≠ [] := by
    rintro rfl
    cases made
  obtain ⟨other, given, id, shown, invariant⟩ :=
    @createWorkspacePaneFromViews_spec pane.id activeViewId views filled room
  cases Option.some.inj (given.symm.trans made)
  exact ⟨id, shown, invariant⟩

theorem MadeOf.edited {pane left : WorkspacePane} {views : List WorkspaceView}
    (made : MadeOf pane left views) (nodup : (views.map (·.id)).Nodup)
    (sub : ∀ id ∈ views.map (·.id), id ∈ pane.views.map (·.id)) :
    left.id = pane.id ∧ (left.views.map (·.id)).Nodup ∧
      (∀ id ∈ left.views.map (·.id), id ∈ pane.views.map (·.id)) ∧ PaneInvariant left := by
  have ids : left.views.map (·.id) = views.map (·.id) := by
    rw [made.views, normalizeView_ids]
  exact ⟨made.id, ids ▸ nodup, ids ▸ sub, made.invariant⟩

end Views

section Activate

variable {root : WorkspaceNode}

theorem onPane_reshown {paneId : JsString} {edit : WorkspacePane → Option WorkspacePane}
    (inv : WorkspaceInvariant (some root))
    (reshown : ∀ pane ∈ root.leaves, pane.id = paneId →
      ∃ left, edit pane = some left ∧ (left = pane ∨
        ∃ views : List WorkspaceView, MadeOf pane left views ∧ views.Perm pane.views)) :
    WorkspaceInvariant (root.editPanes (onPane paneId edit)) ∧
      SameViews (workspacePaneLeaves (root.editPanes (onPane paneId edit))) root.leaves := by
  have panes : PanesInvariant root.leaves := inv.panes
  constructor
  · refine inv.onPane fun pane mem named left edited => ?_
    have nodup := viewIdsOf_nodup panes.viewIds mem
    obtain ⟨made, given, same | ⟨views, anew, perm⟩⟩ := reshown pane mem named
    · cases Option.some.inj (given.symm.trans edited)
      subst same
      exact ⟨named, nodup, fun _ mem => mem, panes.each _ mem⟩
    · cases Option.some.inj (given.symm.trans edited)
      rw [← named]
      exact anew.edited ((perm.map _).nodup_iff.mpr nodup) fun id mem => (perm.map _).mem_iff.mp mem
  · rw [leaves_editPanes]
    have each : ∀ leaves : List WorkspacePane, (∀ pane ∈ leaves, pane ∈ root.leaves) →
        SameViews (leaves.filterMap (onPane paneId edit)) leaves := by
      intro leaves
      induction leaves with
      | nil => exact fun _ => .refl _
      | cons pane leaves ih =>
        intro known
        have rest := ih fun other mem => known other (.tail _ mem)
        unfold SameViews viewsOf at rest ⊢
        rw [filterMap_cons]
        by_cases named : pane.id = paneId
        · obtain ⟨left, given, shown⟩ := reshown pane (known pane (.head _)) named
          have edited : onPane paneId edit pane = some left := (if_pos named).trans given
          simp only [edited, flatMap_cons, map_append]
          refine List.Perm.append ?_ rest
          rcases shown with rfl | ⟨views, anew, perm⟩
          · exact .refl _
          · rw [anew.views, normalizeViews_idem]
            exact perm.map _
        · have kept : onPane paneId edit pane = some pane := if_neg named
          simp only [kept, flatMap_cons, map_append]
          exact List.Perm.append (.refl _) rest
    exact each root.leaves fun _ mem => mem

theorem activateWorkspacePaneSession_spec (inv : WorkspaceInvariant (some root))
    (paneId sessionId : JsString) :
    WorkspaceInvariant (activateWorkspacePaneSession (some root) paneId sessionId) ∧
      SameViews (workspacePaneLeaves (activateWorkspacePaneSession (some root) paneId sessionId))
        root.leaves := by
  refine onPane_reshown inv fun pane mem named => ?_
  unfold activatePaneSession
  split
  · exact ⟨pane, rfl, inl rfl⟩
  · split
    next => exact ⟨pane, rfl, inl rfl⟩
    next view found =>
      have room := (inv.panes.each pane mem).viewCount
      have filled : pane.views ≠ [] := ne_nil_of_mem (mem_of_find?_eq_some found)
      obtain ⟨left, given, -⟩ := @createWorkspacePaneFromViews_spec pane.id view.id _ filled room
      exact ⟨left, given, inr ⟨pane.views, madeOf_of_eq room given, .refl _⟩⟩

theorem activateWorkspacePaneView_spec (inv : WorkspaceInvariant (some root))
    (paneId viewId : JsString) :
    WorkspaceInvariant (activateWorkspacePaneView (some root) paneId viewId) ∧
      SameViews (workspacePaneLeaves (activateWorkspacePaneView (some root) paneId viewId))
        root.leaves := by
  refine onPane_reshown inv fun pane mem named => ?_
  split
  next => exact ⟨pane, rfl, inl rfl⟩
  next other =>
    have room := (inv.panes.each pane mem).viewCount
    have listed : viewId ∈ pane.views.map (·.id) := by
      by_contra missing
      exact other (inr missing)
    have filled : pane.views ≠ [] := by
      intro empty
      simp [empty] at listed
    obtain ⟨left, given, -⟩ := @createWorkspacePaneFromViews_spec pane.id viewId _ filled room
    exact ⟨left, given, inr ⟨pane.views, madeOf_of_eq room given, .refl _⟩⟩

end Activate

section Remove

variable {root : WorkspaceNode}

theorem perm_cons_others {views : List WorkspaceView} (nodup : (views.map (·.id)).Nodup)
    {view : WorkspaceView} (mem : view ∈ views) :
    views.Perm (view :: views.filter fun other => other.id ≠ view.id) := by
  induction views with
  | nil => cases mem
  | cons first views ih =>
    rw [map_cons, nodup_cons] at nodup
    rcases mem_cons.mp mem with rfl | later
    · have kept : views.filter (fun other => other.id ≠ view.id) = views := by
        refine filter_eq_self.mpr fun other there => decide_eq_true fun same => ?_
        exact nodup.1 (mem_map.mpr ⟨other, there, same⟩)
      rw [filter_cons_of_neg (by simp), kept]
    · have other : first.id ≠ view.id := by
        intro same
        exact nodup.1 (mem_map.mpr ⟨view, later, same.symm⟩)
      have split := (ih nodup.2 later).cons first
      rw [filter_cons_of_pos (by simpa using other)]
      exact split.trans (.swap _ _ _)

theorem removePaneView_of_mem {pane : WorkspacePane} {viewId : JsString}
    (inv : PaneInvariant pane) (mem : viewId ∈ pane.views.map (·.id)) :
    (removePaneView viewId pane = none ∧ pane.views.filter (fun view => view.id ≠ viewId) = []) ∨
      ∃ left, removePaneView viewId pane = some left ∧
        MadeOf pane left (pane.views.filter fun view => view.id ≠ viewId) := by
  unfold removePaneView
  split
  next missing =>
    obtain ⟨view, there, rfl⟩ := mem_map.mp mem
    simpa using findIdx?_eq_none_iff.mp missing view there
  next removedIndex _ =>
    have room : (pane.views.filter fun view => view.id ≠ viewId).length ≤ maxWorkspaceGroupTabs :=
      Nat.le_trans (length_filter_le _ _) inv.viewCount
    cases views : pane.views.filter fun view => view.id ≠ viewId with
    | nil => exact inl ⟨rfl, rfl⟩
    | cons first rest =>
      rw [views] at room
      right
      dsimp only [head?_cons, Option.bind_some]
      obtain ⟨left, made, -⟩ := @createWorkspacePaneFromViews_spec pane.id
        (if pane.activeViewId = viewId then
          ((first :: rest).getD (min removedIndex ((first :: rest).length - 1)) first).id
        else pane.activeViewId) (first :: rest) (cons_ne_nil _ _) room
      exact ⟨left, made, madeOf_of_eq room made⟩

theorem removePaneView_of_not_mem {pane : WorkspacePane} {viewId : JsString}
    (missing : viewId ∉ pane.views.map (·.id)) : removePaneView viewId pane = some pane := by
  have none : pane.views.findIdx? (fun view => view.id = viewId) = none := by
    refine findIdx?_eq_none_iff.mpr fun view mem => decide_eq_false fun same => ?_
    exact missing (mem_map.mpr ⟨view, mem, same⟩)
  unfold removePaneView
  rw [none]

structure Remains (pane left : WorkspacePane) : Prop where
  id : left.id = pane.id
  nodup : (left.views.map (·.id)).Nodup
  sub : ∀ id ∈ left.views.map (·.id), id ∈ pane.views.map (·.id)
  invariant : PaneInvariant left

theorem removePaneView_remains {pane left after : WorkspacePane} {viewId : JsString}
    (remains : Remains pane left) (removed : removePaneView viewId left = some after) :
    Remains pane after := by
  by_cases mem : viewId ∈ left.views.map (·.id)
  · rcases removePaneView_of_mem remains.invariant mem with ⟨gone, -⟩ | ⟨next, given, made⟩
    · cases gone.symm.trans removed
    · cases Option.some.inj (given.symm.trans removed)
      have fewer : (left.views.filter fun view => view.id ≠ viewId).Sublist left.views :=
        filter_sublist
      obtain ⟨id, nodup, sub, invariant⟩ := made.edited (remains.nodup.sublist (fewer.map _))
        fun id mem => (fewer.map _).subset mem
      exact ⟨id.trans remains.id, nodup, fun id mem => remains.sub id (sub id mem), invariant⟩
  · cases Option.some.inj ((removePaneView_of_not_mem mem).symm.trans removed)
    exact remains

theorem removePaneViews_remains {pane : WorkspacePane} (viewIds : List JsString)
    {start : Option WorkspacePane} (remains : ∀ left, start = some left → Remains pane left)
    {after : WorkspacePane}
    (removed : viewIds.foldl (fun next viewId => next.bind (removePaneView viewId)) start =
      some after) : Remains pane after := by
  induction viewIds generalizing start with
  | nil => exact remains after removed
  | cons viewId viewIds ih =>
    refine ih ?_ removed
    intro left given
    obtain ⟨before, first, next⟩ := Option.bind_eq_some_iff.mp given
    exact removePaneView_remains (remains before first) next

theorem Remains.refl {pane : WorkspacePane} (inv : WorkspaceInvariant (some root))
    (mem : pane ∈ root.leaves) : Remains pane pane where
  id := rfl
  nodup := viewIdsOf_nodup inv.panes.viewIds mem
  sub := fun _ mem => mem
  invariant := inv.panes.each pane mem

theorem removeWorkspacePaneView_invariant (inv : WorkspaceInvariant (some root))
    (paneId viewId : JsString) :
    WorkspaceInvariant (removeWorkspacePaneView (some root) paneId viewId) := by
  refine inv.onPane fun pane mem named left removed => ?_
  have remains := removePaneView_remains (Remains.refl inv mem) removed
  exact ⟨remains.id.trans named, remains.nodup, remains.sub, remains.invariant⟩

theorem removeWorkspacePaneSession_invariant (inv : WorkspaceInvariant (some root))
    (paneId sessionId : JsString) :
    WorkspaceInvariant (removeWorkspacePaneSession (some root) paneId sessionId) := by
  refine inv.onPane fun pane mem named left removed => ?_
  have remains : Remains pane left := by
    refine removePaneViews_remains _ (fun other given => ?_) removed
    cases Option.some.inj given
    exact Remains.refl inv mem
  exact ⟨remains.id.trans named, remains.nodup, remains.sub, remains.invariant⟩

theorem removeWorkspacePane_invariant (inv : WorkspaceInvariant (some root)) (paneId : JsString) :
    WorkspaceInvariant (removeWorkspacePane (some root) paneId) :=
  inv.onPane fun _ _ _ _ gone => by cases gone

end Remove

section Reorder

variable {root : WorkspaceNode}

theorem reorderPaneView_spec {pane : WorkspacePane} (inv : PaneInvariant pane)
    (nodup : (pane.views.map (·.id)).Nodup) (viewId : JsString) (targetIndex : Option Int) :
    ∃ left, reorderPaneView viewId targetIndex pane = some left ∧ (left = pane ∨
      ∃ views : List WorkspaceView, MadeOf pane left views ∧ views.Perm pane.views) := by
  unfold reorderPaneView
  split
  next sourceIndex view index found =>
    have bounded : insertionIndex targetIndex pane.views.length ≤ pane.views.length :=
      Nat.min_le_left _ _
    dsimp only
    generalize chosen : (if sourceIndex < insertionIndex targetIndex pane.views.length then
      insertionIndex targetIndex pane.views.length - 1
      else insertionIndex targetIndex pane.views.length) = place
    split
    · exact ⟨pane, rfl, inl rfl⟩
    · have mem := mem_of_find?_eq_some found
      have named : view.id = viewId := by simpa using find?_some found
      have perm := perm_cons_others nodup mem
      rw [named] at perm
      have short := perm.length_eq
      rw [length_cons] at short
      have source : sourceIndex < pane.views.length := (findIdx?_eq_some_iff_getElem.mp index).1
      have fits : place ≤ (pane.views.filter fun view => view.id ≠ viewId).length := by
        split at chosen <;> omega
      have reordered := (perm_insertIdx view _ fits).trans perm.symm
      have room := inv.viewCount
      rw [← reordered.length_eq] at room
      have filled := ne_nil_of_mem (reordered.symm.subset mem)
      obtain ⟨left, made, -⟩ := @createWorkspacePaneFromViews_spec pane.id view.id _ filled room
      exact ⟨left, made, inr ⟨_, madeOf_of_eq room made, reordered⟩⟩
  next => exact ⟨pane, rfl, inl rfl⟩

end Reorder

end PortMate
