import PortMate.WorkspaceOperations

namespace PortMate

open List Option

/-- Nothing for a pane without views, of which none is made. -/
def workspacePaneActiveView (pane : WorkspacePane) : Option WorkspaceView :=
  (pane.views.find? fun view => view.id = pane.activeViewId).or pane.views.head?

/-- `replaceWorkspacePaneView` at its pane. -/
def replacePaneView (view : WorkspaceView) (pane : WorkspacePane) : WorkspacePane :=
  match pane.views.findIdx? fun candidate => candidate.id = pane.activeViewId with
  | none => pane
  | some activeIndex =>
    if view.id ∈ (pane.views.eraseIdx activeIndex).map (·.id) then pane
    else
      -- There is a view, so that there is a pane.
      (createWorkspacePaneFromViews pane.id (pane.views.set activeIndex view) view.id).getD pane

/-- `replaceWorkspacePaneView` below the root. -/
def WorkspaceNode.replaceView (paneId : JsString) (view : WorkspaceView) :
    WorkspaceNode → WorkspaceNode
  | .pane leaf => .pane (if leaf.id = paneId then replacePaneView view leaf else leaf)
  | .split id direction ratio first second =>
    if (first.leaves ++ second.leaves).any fun pane =>
        pane.id ≠ paneId ∧ view.id ∈ pane.views.map (·.id) then
      .split id direction ratio first second
    else .split id direction ratio (first.replaceView paneId view) (second.replaceView paneId view)

def replaceWorkspacePaneView (root : Option WorkspaceNode) (paneId : JsString)
    (view : WorkspaceView) : Option WorkspaceNode :=
  root.map (·.replaceView paneId view)

inductive WorkspaceViewDetachCommit
  | detached (root : WorkspaceNode) (activePaneId : JsString) (activeId : Option JsString)
  | missing
  | lastView
  deriving DecidableEq

def commitWorkspaceViewDetach (root : Option WorkspaceNode)
    (activePaneId viewId sessionId : JsString) : WorkspaceViewDetachCommit :=
  let panes := workspacePaneLeaves root
  let shows (pane : WorkspacePane) : Bool :=
    pane.views.any fun view => view.id = viewId ∧ view.sessionId = sessionId
  match panes.findIdx? shows, panes.find? shows with
  | some sourceIndex, some source =>
    let totalViewCount := (panes.map (·.views.length)).sum
    if totalViewCount ≤ 1 then .lastView
    else
      let nextRoot := removeWorkspacePaneView root source.id viewId
      let nextPanes := workspacePaneLeaves nextRoot
      let nextActive := (nextPanes.find? fun pane => pane.id = activePaneId).or
        nextPanes[min sourceIndex (nextPanes.length - 1)]?
      match nextRoot, nextActive with
      | some nextRoot, some nextActive =>
        .detached nextRoot nextActive.id ((workspacePaneActiveView nextActive).map (·.sessionId))
      | _, _ => .lastView
  | _, _ => .missing

inductive WorkspaceViewReattachPlacement
  | existingView | originalPane | emptyWorkspace | newPane | maxPanes | maxDepth
  deriving DecidableEq

/-- The view that a returned one takes the place of. -/
structure ReplacedWorkspaceView where
  view : WorkspaceView
  paneId : JsString
  index : Option Nat
  deriving DecidableEq

inductive WorkspaceViewReattachCommit
  | reattached (root : Option WorkspaceNode) (activePaneId activeId : JsString)
      (placement : WorkspaceViewReattachPlacement) (replaced : Option ReplacedWorkspaceView)
  | conflict
  deriving DecidableEq

def addReturnedView (root : WorkspaceNode) (paneId : JsString) (returnedView : WorkspaceView)
    (placement : WorkspaceViewReattachPlacement) : WorkspaceViewReattachCommit :=
  match findWorkspacePane (some root) paneId with
  | none => .conflict
  | some pane =>
    if pane.views.length < maxWorkspaceGroupTabs then
      let nextRoot := insertWorkspacePaneView (some root) pane.id returnedView
        (some pane.views.length)
      if nextRoot = some root then .conflict
      else .reattached nextRoot pane.id returnedView.sessionId placement none
    else
      let nextRoot := replaceWorkspacePaneView (some root) pane.id returnedView
      if nextRoot = some root then .conflict
      else
        .reattached nextRoot pane.id returnedView.sessionId placement
          ((workspacePaneActiveView pane).map fun replacedView =>
            ⟨replacedView, pane.id, pane.views.findIdx? fun view => view.id = replacedView.id⟩)

/-- The panes that a returned view is put beside, the first of them that can be split. Each attempt
takes the next split id. -/
def splitForReturned (root : WorkspaceNode) (requestedPaneId : JsString)
    (returnedView : WorkspaceView) (createSplitId : Nat → JsString) :
    List WorkspacePane → Nat → Option WorkspaceNode
  | [], _ => none
  | candidate :: candidates, attempt =>
    let nextRoot := splitWorkspacePaneWithView root candidate.id .vertical returnedView
      requestedPaneId (createSplitId attempt) .second
    if nextRoot ≠ some root then nextRoot
    else splitForReturned root requestedPaneId returnedView createSplitId candidates (attempt + 1)

def commitWorkspaceViewReattach (root : Option WorkspaceNode)
    (activePaneId requestedPaneId : JsString) (returnedView : WorkspaceView)
    (createSplitId : Nat → JsString) : WorkspaceViewReattachCommit :=
  let panes := workspacePaneLeaves root
  match panes.find? fun pane => pane.views.any fun view => view.id = returnedView.id with
  | some existingViewPane =>
    match existingViewPane.views.find? fun view => view.id = returnedView.id with
    | none => .conflict
    | some existingView =>
      if existingView.sessionId ≠ returnedView.sessionId then .conflict
      else
        .reattached (activateWorkspacePaneView root existingViewPane.id returnedView.id)
          existingViewPane.id existingView.sessionId .existingView none
  | none =>
    match root, findWorkspacePane root requestedPaneId with
    | some root, some originalPane =>
      addReturnedView root originalPane.id returnedView .originalPane
    | none, _ =>
      .reattached ((createWorkspacePaneFromViews requestedPaneId [returnedView]
        returnedView.id).map .pane) requestedPaneId returnedView.sessionId .emptyWorkspace none
    | some root, none =>
      match (findWorkspacePane (some root) activePaneId).or panes.head? with
      | none => .conflict
      | some target =>
        if maxWorkspacePanes ≤ panes.length then
          addReturnedView root target.id returnedView .maxPanes
        else
          match splitForReturned root requestedPaneId returnedView createSplitId
              (target :: panes.filter fun pane => pane.id ≠ target.id) 0 with
          | some nextRoot =>
            .reattached (some nextRoot) requestedPaneId returnedView.sessionId .newPane none
          | none => addReturnedView root target.id returnedView .maxDepth

/-- The workspace that is shown after a returned view. -/
def WorkspaceViewReattachCommit.shownRoot (root : Option WorkspaceNode) :
    WorkspaceViewReattachCommit → Option WorkspaceNode
  | .reattached nextRoot .. => nextRoot
  | .conflict => root

section Placed

variable {view : WorkspaceView}

theorem workspacePaneActiveView_of_mem {pane : WorkspacePane} (nodup : (pane.views.map (·.id)).Nodup)
    (mem : view ∈ pane.views) (active : pane.activeViewId = view.id) :
    workspacePaneActiveView pane = some view := by
  unfold workspacePaneActiveView
  rw [active, find_of_mem nodup mem, some_or]

theorem workspacePaneActiveView_mem {pane : WorkspacePane}
    (active : workspacePaneActiveView pane = some view) : view ∈ pane.views := by
  unfold workspacePaneActiveView at active
  rcases or_eq_some_iff.mp active with found | ⟨-, first⟩
  · exact mem_of_find?_eq_some found
  · exact mem_of_head? first

theorem createWorkspacePaneFromViews_active {id : JsString} {views : List WorkspaceView}
    {pane : WorkspacePane} (room : views.length ≤ maxWorkspaceGroupTabs)
    (nodup : (views.map (·.id)).Nodup) (mem : view ∈ views)
    (made : createWorkspacePaneFromViews id views view.id = some pane) :
    workspacePaneActiveView pane = some (normalizeView view) := by
  have ids := normalizeView_ids views
  have there : normalizeView view ∈ views.map normalizeView := mem_map.mpr ⟨view, mem, rfl⟩
  have found := find_of_mem (ids ▸ nodup) there
  unfold createWorkspacePaneFromViews at made
  rw [take_of_length_le room] at made
  obtain ⟨first, -, rfl⟩ := map_eq_some_iff.mp made
  refine workspacePaneActiveView_of_mem (ids ▸ nodup) there ?_
  dsimp only
  have chosen : (views.map normalizeView).find? (fun other => other.id = view.id) =
      some (normalizeView view) := found
  rw [chosen]
  rfl

theorem insertPaneView_active {pane : WorkspacePane} {index : Option Int}
    (room : pane.views.length < maxWorkspaceGroupTabs) (nodup : (pane.views.map (·.id)).Nodup)
    (fresh : view.id ∉ pane.views.map (·.id)) :
    workspacePaneActiveView (insertPaneView view index pane) = some (normalizeView view) := by
  unfold insertPaneView
  rw [if_neg (not_or.mpr ⟨Nat.not_le_of_lt room, fresh⟩)]
  have bounded : insertionIndex index pane.views.length ≤ pane.views.length := Nat.min_le_left _ _
  have inserted := perm_insertIdx view pane.views bounded
  have longer := inserted.length_eq
  rw [length_cons] at longer
  have mem := inserted.symm.subset mem_cons_self
  have fits : (pane.views.insertIdx (insertionIndex index pane.views.length) view).length ≤
      maxWorkspaceGroupTabs := by omega
  obtain ⟨left, made, -⟩ := @createWorkspacePaneFromViews_spec pane.id view.id _
    (ne_nil_of_mem mem) fits
  rw [made, getD_some]
  refine createWorkspacePaneFromViews_active fits ?_ mem made
  rw [(inserted.map WorkspaceView.id).nodup_iff, map_cons, nodup_cons]
  exact ⟨fresh, nodup⟩

theorem replacePaneView_spec {pane : WorkspacePane} (inv : PaneInvariant pane)
    (nodup : (pane.views.map (·.id)).Nodup) (fresh : view.id ∉ pane.views.map (·.id)) :
    ∃ shown index rest, workspacePaneActiveView pane = some shown ∧
      pane.views.findIdx? (fun other => other.id = shown.id) = some index ∧
      pane.views[index]? = some shown ∧ pane.views.Perm (shown :: rest) ∧
      MadeOf pane (replacePaneView view pane) (pane.views.set index view) ∧
      (pane.views.set index view).Perm (view :: rest) ∧
      workspacePaneActiveView (replacePaneView view pane) = some (normalizeView view) := by
  obtain ⟨shown, mem, active⟩ := mem_map.mp inv.activeView
  cases place : pane.views.findIdx? fun other => other.id = pane.activeViewId with
  | none => simpa [active] using findIdx?_eq_none_iff.mp place shown mem
  | some index =>
    obtain ⟨inside, named, -⟩ := findIdx?_eq_some_iff_getElem.mp place
    have here : pane.views[index] = shown := by
      refine inj_on_of_nodup_map nodup (getElem_mem inside) mem ?_
      rw [active]
      simpa using named
    have split : pane.views.Perm (shown :: pane.views.eraseIdx index) := by
      rw [← here]
      exact (getElem_cons_eraseIdx_perm inside).symm
    have replaced : (pane.views.set index view).Perm (view :: pane.views.eraseIdx index) :=
      set_perm_cons_eraseIdx inside view
    have unseen : view.id ∉ (pane.views.eraseIdx index).map (·.id) := fun there =>
      fresh (((eraseIdx_sublist pane.views index).map _).subset there)
    have fits : (pane.views.set index view).length ≤ maxWorkspaceGroupTabs := by
      rw [length_set]
      exact inv.viewCount
    have there := replaced.symm.subset mem_cons_self
    obtain ⟨left, made, -⟩ := @createWorkspacePaneFromViews_spec pane.id view.id _
      (ne_nil_of_mem there) fits
    have result : replacePaneView view pane = left := by
      unfold replacePaneView
      rw [place]
      dsimp only
      rw [if_neg unseen, made, getD_some]
    refine ⟨shown, index, pane.views.eraseIdx index,
      workspacePaneActiveView_of_mem nodup mem active.symm, active ▸ place, ?_, split, ?_,
      replaced, ?_⟩
    · rw [getElem?_eq_getElem inside, here]
    · rw [result]
      exact madeOf_of_eq fits made
    · rw [result]
      refine createWorkspacePaneFromViews_active fits ?_ there made
      rw [(replaced.map WorkspaceView.id).nodup_iff, map_cons, nodup_cons]
      refine ⟨unseen, nodup.sublist ((eraseIdx_sublist pane.views index).map _)⟩

end Placed

section Replace

variable {paneId : JsString} {view : WorkspaceView}

theorem leaves_replaceView {node : WorkspaceNode} (fresh : view.id ∉ viewIdsOf node.leaves) :
    (node.replaceView paneId view).leaves = node.leaves.map fun pane =>
      if pane.id = paneId then replacePaneView view pane else pane := by
  induction node with
  | pane leaf => rfl
  | split id direction ratio first second ihFirst ihSecond =>
    have none : ((first.leaves ++ second.leaves).any fun pane =>
        pane.id ≠ paneId ∧ view.id ∈ pane.views.map (·.id)) = false := by
      refine any_eq_false.mpr fun pane mem shows => fresh ?_
      exact mem_flatMap.mpr ⟨pane, mem, (of_decide_eq_true shows).2⟩
    change view.id ∉ viewIdsOf (first.leaves ++ second.leaves) at fresh
    rw [viewIdsOf_append, mem_append, not_or] at fresh
    unfold WorkspaceNode.replaceView
    rw [none, if_neg Bool.false_ne_true]
    change _ = List.map _ (first.leaves ++ second.leaves)
    rw [map_append, ← ihFirst fresh.1, ← ihSecond fresh.2]
    rfl

theorem splits_replaceView (node : WorkspaceNode) :
    (node.replaceView paneId view).splits = node.splits ∧
      (node.replaceView paneId view).height = node.height := by
  induction node with
  | pane leaf => exact ⟨rfl, rfl⟩
  | split id direction ratio first second ihFirst ihSecond =>
    unfold WorkspaceNode.replaceView
    split
    · exact ⟨rfl, rfl⟩
    · simp only [WorkspaceNode.splits, WorkspaceNode.height, ihFirst, ihSecond, and_self]

end Replace

/-- What a new view that is shown in a pane has done to the others. -/
structure ViewPlaced (panes : List WorkspacePane) (view : WorkspaceView) (after : WorkspaceNode)
    (activePaneId : JsString) (replaced : Option ReplacedWorkspaceView) : Prop where
  views : ((replaced.toList.map (·.view) ++ viewsOf after.leaves).map normalizeView).Perm
    ((view :: viewsOf panes).map normalizeView)
  position : ∀ old ∈ replaced, ∃ pane ∈ panes, ∃ left ∈ after.leaves, ∃ index,
    pane.id = old.paneId ∧ left.id = old.paneId ∧ old.index = some index ∧
      pane.views[index]? = some old.view ∧ left.views[index]? = some (normalizeView view)
  active : ∃ pane ∈ after.leaves, pane.id = activePaneId ∧
    workspacePaneActiveView pane = some (normalizeView view)

section Returned

variable {root : WorkspaceNode} {returnedView : WorkspaceView}

theorem ViewPlaced.ne {after : WorkspaceNode} {activePaneId : JsString}
    {replaced : Option ReplacedWorkspaceView}
    (placed : ViewPlaced root.leaves returnedView after activePaneId replaced)
    (fresh : returnedView.id ∉ viewIdsOf root.leaves) : some after ≠ some root := by
  intro same
  obtain ⟨pane, mem, -, active⟩ := placed.active
  rw [Option.some.inj same] at mem
  have there := workspacePaneActiveView_mem active
  exact fresh (mem_flatMap.mpr ⟨pane, mem, mem_map.mpr ⟨_, there, rfl⟩⟩)

theorem addReturnedView_spec (inv : WorkspaceInvariant (some root))
    (fresh : returnedView.id ∉ viewIdsOf root.leaves) {paneId : JsString} {target : WorkspacePane}
    (found : findWorkspacePane (some root) paneId = some target)
    (placement : WorkspaceViewReattachPlacement) :
    ∃ after replaced, addReturnedView root paneId returnedView placement =
        .reattached (some after) paneId returnedView.sessionId placement replaced ∧
      WorkspaceInvariant (some after) ∧ ViewPlaced root.leaves returnedView after paneId replaced := by
  have panes : PanesInvariant root.leaves := inv.panes
  change root.leaves.find? _ = _ at found
  have there := mem_of_find?_eq_some found
  have named : target.id = paneId := by simpa using find?_some found
  have nodup := viewIdsOf_nodup panes.viewIds there
  have unseen : returnedView.id ∉ target.views.map (·.id) := fun mem =>
    fresh (mem_flatMap.mpr ⟨target, there, mem⟩)
  unfold addReturnedView findWorkspacePane workspacePaneLeaves
  rw [map_some, getD_some, found]
  dsimp only
  rw [named]
  split
  next room =>
    obtain ⟨after, mem, views⟩ := @insertView_spec paneId returnedView (some target.views.length)
      root inv fresh target found room
    obtain ⟨_, made, -⟩ := @insertPaneView_spec returnedView (some target.views.length) target
      room unseen
    have placed : ViewPlaced root.leaves returnedView
        (root.insertView paneId returnedView (some target.views.length)) paneId none :=
      { views := views
        position := nofun
        active := ⟨_, mem, made.id.trans named, insertPaneView_active room nodup unseen⟩ }
    have changed : insertWorkspacePaneView (some root) paneId returnedView
        (some target.views.length) ≠ some root := placed.ne fresh
    rw [if_neg changed]
    exact ⟨_, none, rfl, after, placed⟩
  next full =>
    obtain ⟨shown, index, rest, active, place, here, before, made, after, current⟩ :=
      replacePaneView_spec (panes.each target there) nodup unseen
    have same := @splits_replaceView paneId returnedView root
    obtain ⟨valid, mem, views⟩ := @viewShown_spec paneId returnedView root _ inv fresh target
      (replacePaneView returnedView) _ [shown] rest found (leaves_replaceView fresh) same.1 same.2
      made after before
    have placed : ViewPlaced root.leaves returnedView (root.replaceView paneId returnedView) paneId
        (some ⟨shown, paneId, some index⟩) :=
      { views := views
        position := by
          intro old given
          cases Option.some.inj given
          refine ⟨target, there, _, mem, index, named, made.id.trans named, rfl, here, ?_⟩
          rw [made.views, getElem?_map, getElem?_set_self (by
            obtain ⟨inside, -⟩ := List.getElem?_eq_some_iff.mp here
            exact inside)]
          rfl
        active := ⟨_, mem, made.id.trans named, current⟩ }
    have changed : replaceWorkspacePaneView (some root) paneId returnedView ≠ some root :=
      placed.ne fresh
    rw [if_neg changed, active, map_some, place]
    exact ⟨_, _, rfl, valid, placed⟩

theorem splitForReturned_spec {requestedPaneId : JsString} {createSplitId : Nat → JsString}
    {nextRoot : WorkspaceNode} {candidates : List WorkspacePane} {attempt : Nat}
    (found : splitForReturned root requestedPaneId returnedView createSplitId candidates attempt =
      some nextRoot) :
    ∃ (paneId : JsString) (nextPane : WorkspacePane) (taken : Nat),
      createWorkspacePaneFromViews requestedPaneId [returnedView] returnedView.id = some nextPane ∧
      splittable paneId root 0 = true ∧
      nextRoot = root.splitAtDepth paneId .vertical nextPane (createSplitId taken) .second 0 := by
  obtain ⟨nextPane, made, -⟩ := createWorkspacePaneFromViews_one requestedPaneId returnedView
  induction candidates generalizing attempt with
  | nil => cases found
  | cons candidate candidates ih =>
    unfold splitForReturned splitWorkspacePaneWithView at found
    rw [made, map_some] at found
    dsimp only at found
    split at found
    next changed =>
      rcases @splitAtDepth_spec candidate.id .vertical nextPane (createSplitId attempt) .second
        root 0 with ⟨-, same⟩ | ⟨splits, -⟩
      · rw [same] at changed
        exact absurd rfl changed
      · exact ⟨candidate.id, nextPane, attempt, made, splits, (Option.some.inj found).symm⟩
    next => exact ih found

theorem splitForReturned_placed (inv : WorkspaceInvariant (some root))
    (fresh : returnedView.id ∉ viewIdsOf root.leaves) {requestedPaneId : JsString}
    (unknown : requestedPaneId ∉ root.leaves.map (·.id)) {createSplitId : Nat → JsString}
    (new : ∀ taken, createSplitId taken ∉ requestedPaneId :: root.leaves.map (·.id) ++
      root.splits.map (·.1)) (room : root.leaves.length < maxWorkspacePanes)
    {after : WorkspaceNode} {candidates : List WorkspacePane} {attempt : Nat}
    (found : splitForReturned root requestedPaneId returnedView createSplitId candidates attempt =
      some after) :
    KindwiseInvariant (some after) ∧
      (WorkspaceInvariant (some after) ↔ requestedPaneId ∉ root.splits.map (·.1)) ∧
      ViewPlaced root.leaves returnedView after requestedPaneId none := by
  obtain ⟨paneId, nextPane, taken, given, splits, rfl⟩ := splitForReturned_spec found
  obtain ⟨pane, made, id, views, paneInv⟩ :=
    createWorkspacePaneFromViews_one requestedPaneId returnedView
  obtain rfl : nextPane = pane := Option.some.inj (given.symm.trans made)
  have unseen := new taken
  rw [mem_append, mem_cons, not_or, not_or] at unseen
  have viewIds : (nextPane.views.map (·.id)).Nodup := by
    rw [views]
    exact nodup_singleton _
  have freshViews : ∀ viewId ∈ nextPane.views.map (·.id), viewId ∉ viewIdsOf root.leaves := by
    intro viewId mem
    rw [views, map_singleton, mem_singleton] at mem
    rw [mem]
    exact fresh
  rcases @splitAtDepth_spec paneId .vertical nextPane (createSplitId taken) .second root 0 with
    ⟨absent, -⟩ | ⟨-, leaves, splitsAfter, -⟩
  · rw [splits] at absent
    cases absent
  refine ⟨?_, ⟨fun valid there => ?_, fun apart => ?_⟩, ?_, nofun, nextPane, ?_, id, ?_⟩
  · exact inv.kindwise.splitAtDepth paneInv viewIds freshViews (id ▸ unknown) unseen.2 room
  · refine valid.apart requestedPaneId ?_ ?_
    · exact (leaves.map WorkspacePane.id).symm.subset (id ▸ .head _)
    · exact (splitsAfter.map Prod.fst).symm.subset (.tail _ there)
  · refine inv.splitAtDepth paneInv viewIds freshViews ?_ ?_ ?_ room
    · rw [id, mem_append, not_or]
      exact ⟨unknown, apart⟩
    · rw [mem_append, not_or]
      exact ⟨unseen.1.2, unseen.2⟩
    · rw [id]
      exact Ne.symm unseen.1.1
  · refine ((viewsOf_perm leaves).map normalizeView).trans ?_
    change ((nextPane.views ++ viewsOf root.leaves).map normalizeView).Perm _
    rw [views, singleton_append, map_cons, normalizeView_idem]
    exact .refl _
  · exact leaves.symm.subset (.head _)
  · exact @createWorkspacePaneFromViews_active returnedView requestedPaneId [returnedView] nextPane
      (by unfold maxWorkspaceGroupTabs; simp) (nodup_singleton _) (.head _) given

theorem activateWorkspacePaneView_active (inv : WorkspaceInvariant (some root))
    {pane : WorkspacePane} (there : pane ∈ root.leaves) {view : WorkspaceView}
    (mem : view ∈ pane.views) :
    ∃ left ∈ workspacePaneLeaves (activateWorkspacePaneView (some root) pane.id view.id),
      left.id = pane.id ∧ ∃ shown, workspacePaneActiveView left = some shown ∧
        shown.id = view.id ∧ shown.sessionId = view.sessionId := by
  have panes : PanesInvariant root.leaves := inv.panes
  have nodup := viewIdsOf_nodup panes.viewIds there
  have listed : view.id ∈ pane.views.map (·.id) := mem_map.mpr ⟨view, mem, rfl⟩
  unfold activateWorkspacePaneView
  rw [bind_some, leaves_editPanes]
  by_cases active : pane.activeViewId = view.id
  · refine ⟨pane, mem_filterMap.mpr ⟨pane, there, ?_⟩, rfl, view,
      workspacePaneActiveView_of_mem nodup mem active, rfl, rfl⟩
    exact (if_pos rfl).trans (if_pos (Or.inl active))
  · have room := (panes.each pane there).viewCount
    obtain ⟨left, made, id, -⟩ := @createWorkspacePaneFromViews_spec pane.id view.id _
      (ne_nil_of_mem mem) room
    refine ⟨left, mem_filterMap.mpr ⟨pane, there, ?_⟩, id, normalizeView view,
      createWorkspacePaneFromViews_active room nodup mem made, rfl, rfl⟩
    exact (if_pos rfl).trans ((if_neg (not_or.mpr ⟨active, not_not.mpr listed⟩)).trans made)

end Returned

/-- What a workspace is after a view has come back. -/
structure ViewReattached (root : Option WorkspaceNode) (requestedPaneId : JsString)
    (returnedView : WorkspaceView) (after : WorkspaceNode) (activePaneId activeId : JsString)
    (placement : WorkspaceViewReattachPlacement) (replaced : Option ReplacedWorkspaceView) :
    Prop where
  kindwise : KindwiseInvariant (some after)
  valid : WorkspaceInvariant (some after) ↔
    (placement = .newPane → requestedPaneId ∉ (workspaceSplits root).map (·.1))
  once : (viewIdsOf after.leaves).count returnedView.id = 1
  existing : placement = .existingView ↔ returnedView.id ∈ viewIdsOf (workspacePaneLeaves root)
  views : if placement = .existingView then
      replaced = none ∧ SameViews after.leaves (workspacePaneLeaves root)
    else
      ((replaced.toList.map (·.view) ++ workspaceViews (some after)).map normalizeView).Perm
        ((returnedView :: workspaceViews root).map normalizeView)
  position : ∀ old ∈ replaced, ∃ pane ∈ workspacePaneLeaves root, ∃ left ∈ after.leaves, ∃ index,
    pane.id = old.paneId ∧ left.id = old.paneId ∧ old.index = some index ∧
      pane.views[index]? = some old.view ∧ left.views[index]? = some (normalizeView returnedView)
  active : activeId = returnedView.sessionId ∧ ∃ pane ∈ after.leaves, pane.id = activePaneId ∧
    ∃ view, workspacePaneActiveView pane = some view ∧ view.id = returnedView.id ∧
      view.sessionId = returnedView.sessionId

open ViewReattached

/-- What a workspace is without a view that goes to a window of its own. -/
structure ViewDetached (root : Option WorkspaceNode) (viewId sessionId : JsString)
    (after : WorkspaceNode) (activePaneId : JsString) (activeId : Option JsString) : Prop where
  valid : WorkspaceInvariant (some after)
  filled : workspaceViews (some after) ≠ []
  removed : ∃ view ∈ workspaceViews root, view.id = viewId ∧ view.sessionId = sessionId ∧
    ((view :: workspaceViews (some after)).map normalizeView).Perm
      ((workspaceViews root).map normalizeView)
  active : ∃ pane ∈ after.leaves, pane.id = activePaneId ∧
    ∃ view, workspacePaneActiveView pane = some view ∧ activeId = some view.sessionId

section Commits

variable {root : Option WorkspaceNode}

theorem commitWorkspaceViewDetach_spec (inv : WorkspaceInvariant root)
    {activePaneId viewId sessionId nextPaneId : JsString} {after : WorkspaceNode}
    {activeId : Option JsString}
    (committed : commitWorkspaceViewDetach root activePaneId viewId sessionId =
      .detached after nextPaneId activeId) :
    ViewDetached root viewId sessionId after nextPaneId activeId := by
  unfold commitWorkspaceViewDetach at committed
  dsimp only at committed
  split at committed
  next sourceIndex source _ found =>
    split at committed
    · cases committed
    · split at committed
      next nextRoot nextActive left chosen =>
        injection committed with rootEq paneEq activeEq
        subst rootEq paneEq activeEq
        have there := mem_of_find?_eq_some found
        have shows := find?_some found
        obtain ⟨view, mem, asked⟩ := any_eq_true.mp shows
        obtain ⟨rfl, rfl⟩ : view.id = viewId ∧ view.sessionId = sessionId := by simpa using asked
        cases root with
        | none => cases there
        | some root =>
          have panes : PanesInvariant root.leaves := inv.panes
          have removed := removeWorkspacePaneView_spec inv (find_of_mem panes.ids there)
            (find_of_mem (viewIdsOf_nodup panes.viewIds there) mem)
          rw [left] at removed chosen
          have listed : nextActive ∈ nextRoot.leaves := by
            rcases or_eq_some_iff.mp chosen with named | ⟨-, nth⟩
            · exact mem_of_find?_eq_some named
            · exact mem_of_getElem? nth
          have after := removed.invariant.panes
          have nodup := viewIdsOf_nodup after.viewIds listed
          obtain ⟨shown, inside, active⟩ := mem_map.mp (after.each nextActive listed).activeView
          have current := workspacePaneActiveView_of_mem nodup inside active.symm
          refine ⟨removed.invariant, ?_, ⟨view, mem_flatMap.mpr ⟨source, there, mem⟩, rfl, rfl,
            removed.views⟩, nextActive, listed, rfl, shown, current, ?_⟩
          · exact ne_nil_of_mem (mem_flatMap.mpr ⟨nextActive, listed, inside⟩)
          · rw [current]
            rfl
      next => cases committed
  next => cases committed

theorem ViewReattached.of_placed {requestedPaneId activePaneId : JsString}
    {returnedView : WorkspaceView} {after : WorkspaceNode}
    {placement : WorkspaceViewReattachPlacement} {replaced : Option ReplacedWorkspaceView}
    (fresh : returnedView.id ∉ viewIdsOf (workspacePaneLeaves root))
    (other : placement ≠ .existingView) (kindwise : KindwiseInvariant (some after))
    (valid : WorkspaceInvariant (some after) ↔
      (placement = .newPane → requestedPaneId ∉ (workspaceSplits root).map (·.1)))
    (placed : ViewPlaced (workspacePaneLeaves root) returnedView after activePaneId replaced) :
    ViewReattached root requestedPaneId returnedView after activePaneId returnedView.sessionId
      placement replaced := by
  obtain ⟨pane, mem, named, active⟩ := placed.active
  have shown := workspacePaneActiveView_mem active
  refine ⟨kindwise, valid, ?_, ?_, ?_, placed.position, rfl, pane, mem, named, _, active, rfl, rfl⟩
  · refine count_eq_one_of_mem kindwise.panes.viewIds ?_
    exact mem_flatMap.mpr ⟨pane, mem, mem_map.mpr ⟨_, shown, rfl⟩⟩
  · exact ⟨fun same => absurd same other, fun there => absurd there fresh⟩
  · rw [if_neg other]
    exact placed.views

theorem addReturnedView_reattached {root : WorkspaceNode} (inv : WorkspaceInvariant (some root))
    {returnedView : WorkspaceView} (fresh : returnedView.id ∉ viewIdsOf root.leaves)
    {target : WorkspacePane} (there : target ∈ root.leaves) (requestedPaneId : JsString)
    {placement : WorkspaceViewReattachPlacement} (other : placement ≠ .existingView)
    (kept : placement ≠ .newPane) :
    ∃ after nextPaneId activeId placed replaced,
      addReturnedView root target.id returnedView placement =
        .reattached (some after) nextPaneId activeId placed replaced ∧
      ViewReattached (some root) requestedPaneId returnedView after nextPaneId activeId placed
        replaced := by
  obtain ⟨after, replaced, added, valid, placed⟩ := addReturnedView_spec inv fresh
    (find_of_mem inv.panes.ids there) placement
  exact ⟨after, target.id, _, placement, replaced, added, of_placed fresh other
    valid.kindwise ⟨fun _ new => absurd new kept, fun _ => valid⟩ placed⟩

theorem existingView_reattached {root : WorkspaceNode} (inv : WorkspaceInvariant (some root))
    {pane : WorkspacePane} {view returnedView : WorkspaceView} (there : pane ∈ root.leaves)
    (mem : view ∈ pane.views) (same : view.id = returnedView.id)
    (kept : view.sessionId = returnedView.sessionId) (requestedPaneId : JsString) :
    ∃ after, activateWorkspacePaneView (some root) pane.id returnedView.id = some after ∧
      ViewReattached (some root) requestedPaneId returnedView after pane.id view.sessionId
        .existingView none := by
  obtain ⟨valid, views⟩ := activateWorkspacePaneView_spec inv pane.id view.id
  obtain ⟨left, listed, named, shown, active, id, sessionId⟩ :=
    activateWorkspacePaneView_active inv there mem
  rw [same] at valid views listed
  cases after : activateWorkspacePaneView (some root) pane.id returnedView.id with
  | none =>
    rw [after] at listed
    cases listed
  | some next =>
    rw [after] at valid views listed
    refine ⟨next, rfl, valid.kindwise,
      ⟨fun _ => nofun, fun _ => valid⟩, ?_, ?_, ?_, nofun, kept, left, listed, named, shown,
      active, id.trans same, sessionId.trans kept⟩
    · refine count_eq_one_of_mem valid.panes.viewIds ?_
      rw [← same, ← id]
      exact mem_flatMap.mpr ⟨left, listed,
        mem_map.mpr ⟨shown, workspacePaneActiveView_mem active, rfl⟩⟩
    · refine ⟨fun _ => ?_, fun _ => rfl⟩
      rw [← same]
      exact mem_flatMap.mpr ⟨pane, there, mem_map.mpr ⟨view, mem, rfl⟩⟩
    · rw [if_pos rfl]
      exact ⟨rfl, views⟩

theorem onePane_invariant {pane : WorkspacePane} (inv : PaneInvariant pane)
    (nodup : (pane.views.map (·.id)).Nodup) : WorkspaceInvariant (some (.pane pane)) where
  panes :=
    { ids := nodup_singleton _
      viewIds := by
        change (pane.views.map WorkspaceView.id ++ []).Nodup
        rw [append_nil]
        exact nodup
      each := fun _ mem => mem_singleton.mp mem ▸ inv
      count := (by decide : 1 ≤ maxWorkspacePanes) }
  splitIds := nodup_nil
  apart := fun _ _ => not_mem_nil
  depth := Nat.zero_le _
  ratios := nofun

theorem commitWorkspaceViewReattach_spec (inv : WorkspaceInvariant root)
    (activePaneId requestedPaneId : JsString) (returnedView : WorkspaceView)
    {createSplitId : Nat → JsString}
    (new : ∀ taken, createSplitId taken ∉ requestedPaneId :: (workspacePaneLeaves root).map (·.id) ++
      (workspaceSplits root).map (·.1)) :
    (commitWorkspaceViewReattach root activePaneId requestedPaneId returnedView createSplitId =
        .conflict ∧ ∃ view ∈ workspaceViews root, view.id = returnedView.id ∧
          view.sessionId ≠ returnedView.sessionId) ∨
      ∃ after nextPaneId activeId placement replaced,
        commitWorkspaceViewReattach root activePaneId requestedPaneId returnedView createSplitId =
          .reattached (some after) nextPaneId activeId placement replaced ∧
        ViewReattached root requestedPaneId returnedView after nextPaneId activeId placement
          replaced := by
  have panes := inv.panes
  unfold commitWorkspaceViewReattach
  dsimp only
  split
  next pane found =>
    have there := mem_of_find?_eq_some found
    have shows := find?_some found
    obtain ⟨view, mem, asked⟩ := any_eq_true.mp shows
    have same : view.id = returnedView.id := by simpa using asked
    have nodup := viewIdsOf_nodup panes.viewIds there
    have first := find_of_mem nodup mem
    rw [same] at first
    rw [first]
    dsimp only
    split
    next differs => exact Or.inl ⟨rfl, view, mem_flatMap.mpr ⟨pane, there, mem⟩, same, differs⟩
    next session =>
      right
      have kept := not_not.mp session
      cases root with
      | none => cases there
      | some root =>
        obtain ⟨next, activated, reattached⟩ :=
          existingView_reattached inv there mem same kept requestedPaneId
        exact ⟨next, _, _, _, _, by rw [activated], reattached⟩
  next missing =>
    right
    have fresh : returnedView.id ∉ viewIdsOf (workspacePaneLeaves root) := by
      intro mem
      obtain ⟨pane, there, listed⟩ := mem_flatMap.mp mem
      obtain ⟨view, shown, same⟩ := mem_map.mp listed
      refine find?_eq_none.mp missing pane there (any_eq_true.mpr ⟨view, shown, ?_⟩)
      exact decide_eq_true same
    split
    next root originalPane original =>
      exact addReturnedView_reattached inv fresh (mem_of_find?_eq_some original)
        requestedPaneId nofun nofun
    next =>
      obtain ⟨pane, made, id, views, paneInv⟩ :=
        createWorkspacePaneFromViews_one requestedPaneId returnedView
      rw [made]
      have one : WorkspaceInvariant (some (.pane pane)) := by
        refine onePane_invariant paneInv ?_
        rw [views]
        exact nodup_singleton _
      refine ⟨_, _, _, _, _, rfl, of_placed fresh nofun one.kindwise
        ⟨fun _ => nofun, fun _ => one⟩ ⟨?_, nofun, pane, .head _, id, ?_⟩⟩
      · change ((pane.views ++ []).map normalizeView).Perm [normalizeView returnedView]
        rw [views, append_nil, map_singleton, normalizeView_idem]
      · exact @createWorkspacePaneFromViews_active returnedView requestedPaneId [returnedView] pane
          (by unfold maxWorkspaceGroupTabs; simp) (nodup_singleton _) (.head _) made
    next root unnamed =>
      have unknown : requestedPaneId ∉ root.leaves.map (·.id) := by
        intro mem
        obtain ⟨pane, there, named⟩ := mem_map.mp mem
        simpa [named] using find?_eq_none.mp unnamed pane there
      cases chosen : (findWorkspacePane (some root) activePaneId).or
          (workspacePaneLeaves (some root)).head? with
      | none =>
        have empty := head?_eq_none_iff.mp (or_eq_none_iff.mp chosen).2
        exact absurd empty (leaves_ne_nil root)
      | some target =>
        have there : target ∈ root.leaves := by
          rcases or_eq_some_iff.mp chosen with named | ⟨-, head⟩
          · exact mem_of_find?_eq_some named
          · exact mem_of_head? head
        dsimp only
        split
        next => exact addReturnedView_reattached inv fresh there requestedPaneId nofun nofun
        next room =>
          split
          next after found =>
            obtain ⟨kindwise, valid, placed⟩ := splitForReturned_placed inv fresh unknown new
              (Nat.lt_of_not_le room) found
            exact ⟨after, _, _, _, _, rfl, of_placed fresh nofun kindwise
              (valid.trans ⟨fun apart _ => apart, fun apart => apart rfl⟩) placed⟩
          next => exact addReturnedView_reattached inv fresh there requestedPaneId nofun nofun

/-- A view that goes to a window of its own leaves the others, and one that comes back is shown
beside them, in the place of at most one. Only a new pane can share its id with a split: one under
the id of a split that was there. -/
theorem workspace_views_conserved (inv : WorkspaceInvariant root) :
    (∀ activePaneId viewId sessionId after nextPaneId activeId,
      commitWorkspaceViewDetach root activePaneId viewId sessionId =
          .detached after nextPaneId activeId →
        ViewDetached root viewId sessionId after nextPaneId activeId) ∧
      ∀ activePaneId requestedPaneId returnedView createSplitId,
        (∀ taken, createSplitId taken ∉ requestedPaneId :: (workspacePaneLeaves root).map (·.id) ++
          (workspaceSplits root).map (·.1)) →
        let committed := commitWorkspaceViewReattach root activePaneId requestedPaneId returnedView
          createSplitId
        (committed = .conflict → committed.shownRoot root = root ∧
          ∃ view ∈ workspaceViews root, view.id = returnedView.id ∧
            view.sessionId ≠ returnedView.sessionId) ∧
        ∀ nextRoot nextPaneId activeId placement replaced,
          committed = .reattached nextRoot nextPaneId activeId placement replaced →
            ∃ after, nextRoot = some after ∧ ViewReattached root requestedPaneId returnedView after
              nextPaneId activeId placement replaced := by
  refine ⟨fun _ _ _ _ _ _ committed => commitWorkspaceViewDetach_spec inv committed,
    fun activePaneId requestedPaneId returnedView createSplitId new => ?_⟩
  dsimp only
  rcases commitWorkspaceViewReattach_spec inv activePaneId requestedPaneId returnedView new with
    ⟨conflict, shown⟩ | ⟨after, nextPaneId, activeId, placement, replaced, placed, spec⟩
  · rw [conflict]
    exact ⟨fun _ => ⟨rfl, shown⟩, nofun⟩
  · rw [placed]
    refine ⟨nofun, fun nextRoot paneId shownId place old same => ?_⟩
    injection same with rootEq paneEq activeEq placeEq oldEq
    subst rootEq paneEq activeEq placeEq oldEq
    exact ⟨after, rfl, spec⟩

theorem pair_invariant : WorkspaceInvariant (some (workspaceGrid [.char 's'] 1 [])) where
  panes :=
    { ids := by decide
      viewIds := by decide
      each := fun pane mem =>
        ⟨(by decide : ∀ pane ∈ (workspaceGrid [.char 's'] 1 []).leaves,
          pane.activeViewId ∈ pane.views.map (·.id)) pane mem,
        (by decide : ∀ pane ∈ (workspaceGrid [.char 's'] 1 []).leaves,
          pane.views.length ≤ maxWorkspaceGroupTabs) pane mem⟩
      count := by decide }
  splitIds := by decide
  apart := by decide
  depth := by decide
  ratios := by
    intro split mem
    obtain rfl : split = (jsString "s", 1 / 2) := mem_singleton.mp mem
    unfold minWorkspaceSplitRatio maxWorkspaceSplitRatio
    norm_num

/-- The first pane's view leaves, and another view comes back to a pane of its own. -/
theorem pair_detached_reattached :
    ViewDetached (some (workspaceGrid [.char 's'] 1 [])) (jsString "va") [.char 's']
        (workspaceGrid [.char 's'] 0 [.char 'b']) (jsString "pb") (some [.char 's']) ∧
      ∃ after, ViewReattached (some (workspaceGrid [.char 's'] 1 [])) (jsString "new")
        (createWorkspaceView [.char 's'] (jsString "fresh")) after (jsString "new") [.char 's']
        .newPane none := by
  obtain ⟨detaches, returns⟩ := workspace_views_conserved pair_invariant
  refine ⟨detaches (jsString "pa") _ _ _ _ _ (by decide), ?_⟩
  obtain ⟨-, reattaches⟩ := returns (jsString "pa") (jsString "new")
    (createWorkspaceView [.char 's'] (jsString "fresh")) (fun _ => jsString "beside")
    (fun _ => by decide)
  obtain ⟨after, -, spec⟩ := reattaches _ _ _ _ _ (by with_unfolding_all rfl)
  exact ⟨after, spec⟩

/-- A view comes back under a pane id that a split has taken in between; and one that is still there
keeps the title it has. -/
theorem returned_under_split_id :
    let root := workspaceGrid [.char 's'] 1 []
    let edited : WorkspaceView :=
      { createWorkspaceView [.char 's'] (jsString "va") with title := jsString "edited" }
    WorkspaceInvariant (some root) ∧
      (∃ after, commitWorkspaceViewReattach (some root) (jsString "pa") (jsString "s")
          (createWorkspaceView [.char 's'] (jsString "fresh")) (fun _ => jsString "beside") =
        .reattached (some after) (jsString "s") [.char 's'] .newPane none ∧
        jsString "s" ∈ after.leaves.map (·.id) ∧ jsString "s" ∈ after.splits.map (·.1) ∧
        ¬ WorkspaceInvariant (some after)) ∧
      ∃ after, commitWorkspaceViewReattach (some root) (jsString "pa") (jsString "new") edited
          (fun _ => jsString "beside") =
        .reattached (some after) (jsString "pa") [.char 's'] .existingView none ∧
        edited ∉ workspaceViews (some after) := by
  refine ⟨pair_invariant, ⟨_, by with_unfolding_all rfl, by decide, by decide, fun inv => ?_⟩,
    _, by with_unfolding_all rfl, by decide⟩
  exact inv.apart (jsString "s") (by decide) (by decide)

end Commits

end PortMate
