import PortMate.WorkspaceSplits

namespace PortMate

open List Option Or WorkspaceNode

/-- The operations on the tree of a workspace, with the ids that the new nodes take. -/
inductive WorkspaceOperation
  | split (paneId : JsString) (direction : WorkspaceSplitDirection)
      (newSessionId newPaneId splitId newViewId : JsString) (placement : WorkspaceSplitPlacement)
  | splitWithView (paneId : JsString) (direction : WorkspaceSplitDirection) (view : WorkspaceView)
      (newPaneId splitId : JsString) (placement : WorkspaceSplitPlacement)
  | close (paneId : JsString)
  | closeView (paneId viewId : JsString)
  | closeSession (paneId sessionId : JsString)
  | moveView (sourcePaneId targetPaneId viewId : JsString) (targetIndex : Option Int)
  | moveSession (sourcePaneId targetPaneId sessionId : JsString)
  | moveToNewGroup (sourcePaneId targetPaneId viewId : JsString)
      (direction : WorkspaceSplitDirection) (newPaneId splitId : JsString)
      (placement : WorkspaceSplitPlacement)
  | merge (sourcePaneId targetPaneId : JsString)
  | swap (firstPaneId secondPaneId : JsString)
  | splitViewToGroup (sourcePaneId viewId : JsString) (direction : WorkspaceSplitDirection)
      (newPaneId splitId : JsString) (placement : WorkspaceSplitPlacement)
  | splitSessionToGroup (sourcePaneId sessionId : JsString) (direction : WorkspaceSplitDirection)
      (newPaneId splitId : JsString) (placement : WorkspaceSplitPlacement)
  | activateSession (paneId sessionId : JsString)
  | activateView (paneId viewId : JsString)
  | resize (splitId : JsString) (ratio : Option ℚ)

open WorkspaceOperation

namespace WorkspaceOperation

def apply (root : Option WorkspaceNode) : WorkspaceOperation → Option WorkspaceNode
  | .split paneId direction newSessionId newPaneId splitId newViewId placement =>
    root.bind fun root =>
      splitWorkspacePane root paneId direction newSessionId newPaneId splitId newViewId placement
  | .splitWithView paneId direction view newPaneId splitId placement =>
    root.bind fun root =>
      splitWorkspacePaneWithView root paneId direction view newPaneId splitId placement
  | .close paneId => removeWorkspacePane root paneId
  | .closeView paneId viewId => removeWorkspacePaneView root paneId viewId
  | .closeSession paneId sessionId => removeWorkspacePaneSession root paneId sessionId
  | .moveView sourcePaneId targetPaneId viewId targetIndex =>
    moveWorkspacePaneView root sourcePaneId targetPaneId viewId targetIndex
  | .moveSession sourcePaneId targetPaneId sessionId =>
    moveWorkspacePaneSession root sourcePaneId targetPaneId sessionId
  | .moveToNewGroup sourcePaneId targetPaneId viewId direction newPaneId splitId placement =>
    moveWorkspacePaneViewToNewGroup root sourcePaneId targetPaneId viewId direction newPaneId
      splitId placement
  | .merge sourcePaneId targetPaneId => mergeWorkspacePaneGroups root sourcePaneId targetPaneId
  | .swap firstPaneId secondPaneId => swapWorkspacePanes root firstPaneId secondPaneId
  | .splitViewToGroup sourcePaneId viewId direction newPaneId splitId placement =>
    splitWorkspacePaneViewToGroup root sourcePaneId viewId direction newPaneId splitId placement
  | .splitSessionToGroup sourcePaneId sessionId direction newPaneId splitId placement =>
    splitWorkspacePaneSessionToGroup root sourcePaneId sessionId direction newPaneId splitId
      placement
  | .activateSession paneId sessionId => activateWorkspacePaneSession root paneId sessionId
  | .activateView paneId viewId => activateWorkspacePaneView root paneId viewId
  | .resize splitId ratio => updateWorkspaceSplitRatio root splitId ratio

/-- What the callers see to: ids for new nodes are new, as random ids are, a new session has an id,
and before the two plain splits there is room for one more pane. -/
def Allowed (root : WorkspaceNode) : WorkspaceOperation → Prop
  | .split _ _ newSessionId newPaneId splitId newViewId _ =>
    NewGroup root newPaneId splitId ∧ newSessionId ≠ [] ∧ newViewId ∉ viewIdsOf root.leaves ∧
      root.leaves.length < maxWorkspacePanes
  | .splitWithView _ _ view newPaneId splitId _ =>
    NewGroup root newPaneId splitId ∧ view.id ∉ viewIdsOf root.leaves ∧
      root.leaves.length < maxWorkspacePanes
  | .moveToNewGroup _ _ _ _ newPaneId splitId _ => NewGroup root newPaneId splitId
  | .splitViewToGroup _ _ _ newPaneId splitId _ => NewGroup root newPaneId splitId
  | .splitSessionToGroup _ _ _ newPaneId splitId _ => NewGroup root newPaneId splitId
  | _ => True

def shownView (root : WorkspaceNode) (paneId : JsString) (asked : WorkspaceView → Bool) :
    Option WorkspaceView :=
  (findWorkspacePane (some root) paneId).bind fun pane => pane.views.find? asked

def ViewsKept (root : WorkspaceNode) (operation : WorkspaceOperation) : Prop :=
  match operation with
  | .split .. | .splitWithView .. | .close .. | .closeView .. | .closeSession .. => True
  | .moveSession sourcePaneId targetPaneId sessionId =>
    NotBothShow root sourcePaneId targetPaneId sessionId ∧
        SameViews (workspacePaneLeaves (operation.apply (some root))) root.leaves ∨
      SessionJoined root sourcePaneId targetPaneId sessionId (operation.apply (some root))
  | _ => SameViews (workspacePaneLeaves (operation.apply (some root))) root.leaves

/-- Why an operation is refused: a pane, a view, a session or a split that is not there, the pane
itself as its target, or a limit that it would go over. -/
def Refused (root : WorkspaceNode) : WorkspaceOperation → Prop
  | .split paneId .. | .splitWithView paneId .. => splittable paneId root 0 = false
  | .close paneId => findWorkspacePane (some root) paneId = none
  | .closeView paneId viewId | .activateView paneId viewId =>
    shownView root paneId (fun view => view.id = viewId) = none
  | .closeSession paneId sessionId | .activateSession paneId sessionId =>
    shownView root paneId (fun view => view.sessionId = sessionId) = none
  | .moveView sourcePaneId targetPaneId viewId _ =>
    shownView root sourcePaneId (fun view => view.id = viewId) = none ∨
      findWorkspacePane (some root) targetPaneId = none ∨
      (sourcePaneId ≠ targetPaneId ∧ ∃ target,
        findWorkspacePane (some root) targetPaneId = some target ∧
          maxWorkspaceGroupTabs ≤ target.views.length)
  | .moveSession sourcePaneId targetPaneId sessionId =>
    sourcePaneId = targetPaneId ∨
      shownView root sourcePaneId (fun view => view.sessionId = sessionId) = none ∨
      findWorkspacePane (some root) targetPaneId = none ∨
      (shownView root targetPaneId (fun view => view.sessionId = sessionId) = none ∧ ∃ target,
        findWorkspacePane (some root) targetPaneId = some target ∧
          maxWorkspaceGroupTabs ≤ target.views.length)
  | .moveToNewGroup sourcePaneId targetPaneId viewId _ _ _ _ =>
    shownView root sourcePaneId (fun view => view.id = viewId) = none ∨
      findWorkspacePane (some root) targetPaneId = none ∨
      (∃ source, findWorkspacePane (some root) sourcePaneId = some source ∧
        ((sourcePaneId = targetPaneId ∧ source.views.length ≤ 1) ∨
          maxWorkspacePanes < root.leaves.length + if 1 < source.views.length then 1 else 0)) ∨
      ∀ without, removeWorkspacePaneView (some root) sourcePaneId viewId = some without →
        splittable targetPaneId without 0 = false
  | .merge sourcePaneId targetPaneId =>
    sourcePaneId = targetPaneId ∨ findWorkspacePane (some root) sourcePaneId = none ∨
      findWorkspacePane (some root) targetPaneId = none ∨
      ∃ source target, findWorkspacePane (some root) sourcePaneId = some source ∧
        findWorkspacePane (some root) targetPaneId = some target ∧
        maxWorkspaceGroupTabs < target.views.length + source.views.length
  | .swap firstPaneId secondPaneId =>
    firstPaneId = secondPaneId ∨ findWorkspacePane (some root) firstPaneId = none ∨
      findWorkspacePane (some root) secondPaneId = none
  | .splitViewToGroup sourcePaneId viewId _ _ _ _ =>
    maxWorkspacePanes ≤ root.leaves.length ∨
      shownView root sourcePaneId (fun view => view.id = viewId) = none ∨
      (∃ source, findWorkspacePane (some root) sourcePaneId = some source ∧
        source.views.length ≤ 1) ∨
      ∀ without, removeWorkspacePaneView (some root) sourcePaneId viewId = some without →
        splittable sourcePaneId without 0 = false
  | .splitSessionToGroup sourcePaneId sessionId _ _ _ _ =>
    maxWorkspacePanes ≤ root.leaves.length ∨
      shownView root sourcePaneId (fun view => view.sessionId = sessionId) = none ∨
      (∃ source, findWorkspacePane (some root) sourcePaneId = some source ∧
        source.views.length ≤ 1) ∨
      ∀ view without, shownView root sourcePaneId (fun view => view.sessionId = sessionId) =
          some view →
        removeWorkspacePaneView (some root) sourcePaneId view.id = some without →
          splittable sourcePaneId without 0 = false
  | .resize splitId _ => splitId ∉ root.splits.map (·.1)

end WorkspaceOperation

section Resize

variable {splitId : JsString} {ratio : Option ℚ}

theorem updateSplitRatio_spec (node : WorkspaceNode) :
    (node.updateSplitRatio splitId ratio).leaves = node.leaves ∧
      (node.updateSplitRatio splitId ratio).splits.map (·.1) = node.splits.map (·.1) ∧
      (node.updateSplitRatio splitId ratio).height = node.height ∧
      ∀ split ∈ (node.updateSplitRatio splitId ratio).splits,
        split ∈ node.splits ∨ split.2 = normalizeSplitRatio ratio := by
  induction node with
  | pane leaf => exact ⟨rfl, rfl, rfl, fun _ mem => inl mem⟩
  | split id direction old first second ihFirst ihSecond =>
    unfold updateSplitRatio
    split
    · refine ⟨rfl, rfl, rfl, fun split mem => ?_⟩
      rcases mem_cons.mp mem with rfl | later
      · exact inr rfl
      · exact inl (.tail _ later)
    · obtain ⟨leaves, ids, height, ratios⟩ := ihFirst
      obtain ⟨others, otherIds, otherHeight, otherRatios⟩ := ihSecond
      simp only [WorkspaceNode.leaves, splits, WorkspaceNode.height, map_cons,
        map_append, leaves, ids, height, others, otherIds, otherHeight, true_and]
      intro split mem
      rcases mem_cons.mp mem with rfl | later
      · exact inl (.head _)
      · rcases mem_append.mp later with here | there
        · exact (ratios split here).imp_left fun known => .tail _ (mem_append_left _ known)
        · exact (otherRatios split there).imp_left fun known =>
            .tail _ (mem_append_right _ known)

theorem updateSplitRatio_invariant {root : WorkspaceNode} (inv : WorkspaceInvariant (some root)) :
    WorkspaceInvariant (some (root.updateSplitRatio splitId ratio)) := by
  obtain ⟨leaves, ids, height, ratios⟩ := @updateSplitRatio_spec splitId ratio root
  constructor
  · change PanesInvariant (root.updateSplitRatio splitId ratio).leaves
    rw [leaves]
    exact inv.panes
  · change ((root.updateSplitRatio splitId ratio).splits.map (·.1)).Nodup
    rw [ids]
    exact inv.splitIds
  · intro id mem
    change id ∈ (root.updateSplitRatio splitId ratio).leaves.map (·.id) at mem
    change id ∉ (root.updateSplitRatio splitId ratio).splits.map (·.1)
    rw [leaves] at mem
    rw [ids]
    exact inv.apart id mem
  · change (root.updateSplitRatio splitId ratio).height ≤ _
    rw [height]
    exact inv.depth
  · intro split mem
    rcases ratios split mem with known | normal
    · exact inv.ratios split known
    · rw [normal]
      exact normalizeSplitRatio_bounds ratio

theorem updateSplitRatio_of_not_mem {node : WorkspaceNode}
    (missing : splitId ∉ node.splits.map (·.1)) : node.updateSplitRatio splitId ratio = node := by
  induction node with
  | pane leaf => rfl
  | split id direction old first second ihFirst ihSecond =>
    change splitId ∉ id :: (first.splits ++ second.splits).map (·.1) at missing
    rw [mem_cons, map_append, mem_append, not_or, not_or] at missing
    unfold updateSplitRatio
    rw [if_neg (Ne.symm missing.1), ihFirst missing.2.1, ihSecond missing.2.2]

end Resize

section Refusal

variable {root : WorkspaceNode}

theorem editPanes_same {edit : WorkspacePane → Option WorkspacePane} {node : WorkspaceNode}
    (kept : ∀ pane ∈ node.leaves, edit pane = some pane) : node.editPanes edit = some node := by
  induction node with
  | pane leaf =>
    unfold editPanes
    rw [kept leaf (.head _), map_some]
  | split id direction ratio first second ihFirst ihSecond =>
    unfold editPanes
    rw [ihFirst fun pane mem => kept pane (mem_append_left _ mem),
      ihSecond fun pane mem => kept pane (mem_append_right _ mem)]

theorem onPane_same {edit : WorkspacePane → Option WorkspacePane} {paneId : JsString}
    (kept : ∀ pane ∈ root.leaves, pane.id = paneId → edit pane = some pane) :
    (some root).bind (·.editPanes (onPane paneId edit)) = some root := by
  refine editPanes_same fun pane mem => ?_
  unfold onPane
  split
  next named => exact kept pane mem named
  next => rfl

theorem find_none_of_mem {paneId : JsString}
    (missing : findWorkspacePane (some root) paneId = none) :
    ∀ pane ∈ root.leaves, pane.id ≠ paneId := by
  intro pane mem
  simpa using find?_eq_none.mp missing pane mem

theorem shownView_none (inv : WorkspaceInvariant (some root)) {paneId : JsString}
    {asked : WorkspaceView → Bool}
    (missing : shownView root paneId asked = none) :
    ∀ pane ∈ root.leaves, pane.id = paneId → pane.views.find? asked = none := by
  intro pane mem named
  have found : findWorkspacePane (some root) paneId = some pane := by
    rw [← named]
    exact find_of_mem inv.panes.ids mem
  unfold shownView at missing
  rw [found] at missing
  exact missing

theorem shownView_of_find {paneId : JsString} {pane : WorkspacePane} {asked : WorkspaceView → Bool}
    (found : findWorkspacePane (some root) paneId = some pane) :
    shownView root paneId asked = pane.views.find? asked := by
  unfold shownView
  rw [found]
  rfl

theorem moveWorkspacePaneView_refused {sourcePaneId targetPaneId viewId : JsString}
    {targetIndex : Option Int}
    (refused : (WorkspaceOperation.moveView sourcePaneId targetPaneId viewId targetIndex).Refused
      root) :
    moveWorkspacePaneView (some root) sourcePaneId targetPaneId viewId targetIndex = some root := by
  unfold moveWorkspacePaneView
  split
  next source target foundSource foundTarget =>
    split
    next => rfl
    next view shown =>
      rcases refused with missing | missing | ⟨distinct, other, found, full⟩
      · cases shown.symm.trans ((shownView_of_find foundSource).symm.trans missing)
      · cases foundTarget.symm.trans missing
      · cases Option.some.inj (foundTarget.symm.trans found)
        rw [if_neg distinct, if_pos full, ite_self]
  next => rfl

theorem moveWorkspacePaneSession_refused {sourcePaneId targetPaneId sessionId : JsString}
    (refused : (WorkspaceOperation.moveSession sourcePaneId targetPaneId sessionId).Refused root) :
    moveWorkspacePaneSession (some root) sourcePaneId targetPaneId sessionId = some root := by
  unfold moveWorkspacePaneSession
  split
  next => rfl
  next distinct =>
    split
    next source target foundSource foundTarget =>
      split
      next => rfl
      next view shown =>
        rcases refused with same | missing | missing | ⟨absent, other, found, full⟩
        · exact absurd same distinct
        · cases shown.symm.trans ((shownView_of_find foundSource).symm.trans missing)
        · cases foundTarget.symm.trans missing
        · cases Option.some.inj (foundTarget.symm.trans found)
          have none := (shownView_of_find foundTarget).symm.trans absent
          rw [none]
          exact moveWorkspacePaneView_refused (inr (inr ⟨distinct, target, found, full⟩))
    next => rfl

theorem splitWorkspacePaneViewToGroup_refused (inv : WorkspaceInvariant (some root))
    {sourcePaneId viewId newPaneId splitId : JsString} {direction : WorkspaceSplitDirection}
    {placement : WorkspaceSplitPlacement} (new : NewGroup root newPaneId splitId)
    (refused : (WorkspaceOperation.splitViewToGroup sourcePaneId viewId direction newPaneId splitId
      placement).Refused root) :
    splitWorkspacePaneViewToGroup (some root) sourcePaneId viewId direction newPaneId splitId
      placement = some root := by
  unfold splitWorkspacePaneViewToGroup
  split
  next => rfl
  next room =>
    split
    next => rfl
    next source found =>
      split
      next => rfl
      next view shown =>
        split
        next => rfl
        next more =>
          have removed := removeWorkspacePaneView_spec inv found shown
          split
          next => rfl
          next node left =>
            rw [left] at removed
            rcases refused with full | missing | ⟨other, same, one⟩ | deep
            · exact absurd full room
            · cases shown.symm.trans ((shownView_of_find found).symm.trans missing)
            · cases Option.some.inj (found.symm.trans same)
              exact absurd one more
            · have count : node.leaves.length + (if 1 < source.views.length then 0 else 1) =
                  root.leaves.length := removed.count
              have few : ¬ maxWorkspacePanes ≤ root.leaves.length := room
              exact (@regroup_spec root direction newPaneId splitId placement inv new node source
                view removed (by omega) sourcePaneId).2.2 (deep node left)

theorem moveWorkspacePaneViewToNewGroup_refused (inv : WorkspaceInvariant (some root))
    {sourcePaneId targetPaneId viewId newPaneId splitId : JsString}
    {direction : WorkspaceSplitDirection} {placement : WorkspaceSplitPlacement}
    (new : NewGroup root newPaneId splitId)
    (refused : (WorkspaceOperation.moveToNewGroup sourcePaneId targetPaneId viewId direction
      newPaneId splitId placement).Refused root) :
    moveWorkspacePaneViewToNewGroup (some root) sourcePaneId targetPaneId viewId direction newPaneId
      splitId placement = some root := by
  unfold moveWorkspacePaneViewToNewGroup
  split
  next source target found foundTarget =>
    split
    next => rfl
    next view shown =>
      split
      next => rfl
      next other =>
        dsimp only
        generalize delta : (if 1 < source.views.length then 1 else 0) = paneDelta
        split
        next => rfl
        next room =>
          have removed := removeWorkspacePaneView_spec inv found shown
          split
          next => rfl
          next node left =>
            split
            · rfl
            · rw [left] at removed
              have count : node.leaves.length + (if 1 < source.views.length then 0 else 1) =
                  root.leaves.length := removed.count
              have few : ¬ maxWorkspacePanes < root.leaves.length + paneDelta := room
              have fits : node.leaves.length < maxWorkspacePanes := by
                split at count <;> split at delta <;> omega
              rcases refused with missing | missing | ⟨pane, same, alone | many⟩ | deep
              · cases shown.symm.trans ((shownView_of_find found).symm.trans missing)
              · cases foundTarget.symm.trans missing
              · cases Option.some.inj (found.symm.trans same)
                exact absurd alone other
              · cases Option.some.inj (found.symm.trans same)
                rw [delta] at many
                exact absurd many few
              · exact (@regroup_spec root direction newPaneId splitId placement inv new node source
                  view removed fits targetPaneId).2.2 (deep node left)
  next => rfl

theorem mergeWorkspacePaneGroups_refused {sourcePaneId targetPaneId : JsString}
    (refused : (WorkspaceOperation.merge sourcePaneId targetPaneId).Refused root) :
    mergeWorkspacePaneGroups (some root) sourcePaneId targetPaneId = some root := by
  unfold mergeWorkspacePaneGroups
  split
  next => rfl
  next distinct =>
    split
    next source target foundSource foundTarget =>
      rcases refused with same | missing | missing | ⟨one, two, sameSource, sameTarget, full⟩
      · exact absurd same distinct
      · cases foundSource.symm.trans missing
      · cases foundTarget.symm.trans missing
      · cases Option.some.inj (foundSource.symm.trans sameSource)
        cases Option.some.inj (foundTarget.symm.trans sameTarget)
        exact if_pos (by rwa [length_append])
    next => rfl

theorem swapWorkspacePanes_refused {firstPaneId secondPaneId : JsString}
    (refused : (WorkspaceOperation.swap firstPaneId secondPaneId).Refused root) :
    swapWorkspacePanes (some root) firstPaneId secondPaneId = some root := by
  unfold swapWorkspacePanes
  split
  next => rfl
  next distinct =>
    split
    next first second foundFirst foundSecond =>
      rcases refused with same | missing | missing
      · exact absurd same distinct
      · cases foundFirst.symm.trans missing
      · cases foundSecond.symm.trans missing
    next => rfl

theorem WorkspaceOperation.refused (inv : WorkspaceInvariant (some root))
    {operation : WorkspaceOperation} (allowed : operation.Allowed root)
    (refused : operation.Refused root) : operation.apply (some root) = some root := by
  cases operation with
  | split paneId direction newSessionId newPaneId splitId newViewId placement =>
    have none : splittable paneId root 0 = false := refused
    change splitWorkspacePane root paneId direction newSessionId newPaneId splitId newViewId
      placement = some root
    unfold splitWorkspacePane
    split
    next nextPane _ =>
      rcases @splitAtDepth_spec paneId direction nextPane splitId placement root 0 with
        ⟨-, same⟩ | ⟨there, -⟩
      · rw [same]
      · cases none.symm.trans there
    next => exact if_neg (by simpa [splittable] using none)
  | splitWithView paneId direction view newPaneId splitId placement =>
    have none : splittable paneId root 0 = false := refused
    obtain ⟨nextPane, made, -⟩ := createWorkspacePaneFromViews_one newPaneId view
    change splitWorkspacePaneWithView root paneId direction view newPaneId splitId placement =
      some root
    unfold splitWorkspacePaneWithView
    rw [made, map_some]
    rcases @splitAtDepth_spec paneId direction nextPane splitId placement root 0 with
      ⟨-, same⟩ | ⟨there, -⟩
    · rw [same]
    · cases none.symm.trans there
  | close paneId =>
    exact onPane_same fun pane mem named => absurd named (find_none_of_mem refused pane mem)
  | closeView paneId viewId =>
    refine onPane_same fun pane mem named => removePaneView_of_not_mem fun listed => ?_
    obtain ⟨view, there, same⟩ := mem_map.mp listed
    simpa [same] using find?_eq_none.mp (shownView_none inv refused pane mem named) view there
  | closeSession paneId sessionId =>
    refine onPane_same fun pane mem named => ?_
    have none : pane.views.filter (fun view => view.sessionId = sessionId) = [] :=
      filter_eq_nil_iff.mpr (find?_eq_none.mp (shownView_none inv refused pane mem named))
    rw [none]
    rfl
  | moveView sourcePaneId targetPaneId viewId targetIndex =>
    exact moveWorkspacePaneView_refused refused
  | moveSession sourcePaneId targetPaneId sessionId =>
    exact moveWorkspacePaneSession_refused refused
  | moveToNewGroup sourcePaneId targetPaneId viewId direction newPaneId splitId placement =>
    exact moveWorkspacePaneViewToNewGroup_refused inv allowed refused
  | merge sourcePaneId targetPaneId => exact mergeWorkspacePaneGroups_refused refused
  | swap firstPaneId secondPaneId => exact swapWorkspacePanes_refused refused
  | splitViewToGroup sourcePaneId viewId direction newPaneId splitId placement =>
    exact splitWorkspacePaneViewToGroup_refused inv allowed refused
  | splitSessionToGroup sourcePaneId sessionId direction newPaneId splitId placement =>
    change splitWorkspacePaneSessionToGroup (some root) sourcePaneId sessionId direction newPaneId
      splitId placement = some root
    unfold splitWorkspacePaneSessionToGroup
    split
    next view shown =>
      obtain ⟨source, found, listed⟩ := bind_eq_some_iff.mp shown
      refine splitWorkspacePaneViewToGroup_refused inv allowed ?_
      rcases refused with full | missing | one | deep
      · exact inl full
      · cases shown.symm.trans missing
      · exact inr (inr (inl one))
      · exact inr (inr (inr fun without left => deep view without shown left))
    next => rfl
  | activateSession paneId sessionId =>
    refine onPane_same fun pane mem named => ?_
    unfold activatePaneSession
    rw [shownView_none inv refused pane mem named, ite_self]
  | activateView paneId viewId =>
    refine onPane_same fun pane mem named => if_pos (inr fun listed => ?_)
    obtain ⟨view, there, same⟩ := mem_map.mp listed
    simpa [same] using find?_eq_none.mp (shownView_none inv refused pane mem named) view there
  | resize splitId ratio =>
    change some (root.updateSplitRatio splitId ratio) = some root
    rw [updateSplitRatio_of_not_mem refused]

end Refusal

section Operations

theorem WorkspaceOperation.apply_invariant {root : WorkspaceNode}
    (inv : WorkspaceInvariant (some root)) {operation : WorkspaceOperation}
    (allowed : operation.Allowed root) :
    WorkspaceInvariant (operation.apply (some root)) ∧ operation.ViewsKept root := by
  cases operation with
  | split paneId direction newSessionId newPaneId splitId newViewId placement =>
    obtain ⟨new, session, fresh, room⟩ := allowed
    exact ⟨splitWorkspacePane_invariant inv new session fresh room paneId, trivial⟩
  | splitWithView paneId direction view newPaneId splitId placement =>
    obtain ⟨new, fresh, room⟩ := allowed
    exact ⟨splitWorkspacePaneWithView_invariant inv new fresh room paneId, trivial⟩
  | close paneId => exact ⟨removeWorkspacePane_invariant inv paneId, trivial⟩
  | closeView paneId viewId => exact ⟨removeWorkspacePaneView_invariant inv paneId viewId, trivial⟩
  | closeSession paneId sessionId =>
    exact ⟨removeWorkspacePaneSession_invariant inv paneId sessionId, trivial⟩
  | moveView sourcePaneId targetPaneId viewId targetIndex =>
    exact moveWorkspacePaneView_spec inv sourcePaneId targetPaneId viewId targetIndex
  | moveSession sourcePaneId targetPaneId sessionId =>
    exact moveWorkspacePaneSession_spec inv sourcePaneId targetPaneId sessionId
  | moveToNewGroup sourcePaneId targetPaneId viewId direction newPaneId splitId placement =>
    exact moveWorkspacePaneViewToNewGroup_spec inv allowed sourcePaneId targetPaneId viewId
  | merge sourcePaneId targetPaneId =>
    exact mergeWorkspacePaneGroups_spec inv sourcePaneId targetPaneId
  | swap firstPaneId secondPaneId => exact swapWorkspacePanes_spec inv firstPaneId secondPaneId
  | splitViewToGroup sourcePaneId viewId direction newPaneId splitId placement =>
    exact splitWorkspacePaneViewToGroup_spec inv allowed sourcePaneId viewId
  | splitSessionToGroup sourcePaneId sessionId direction newPaneId splitId placement =>
    exact splitWorkspacePaneSessionToGroup_spec inv allowed sourcePaneId sessionId
  | activateSession paneId sessionId => exact activateWorkspacePaneSession_spec inv paneId sessionId
  | activateView paneId viewId => exact activateWorkspacePaneView_spec inv paneId viewId
  | resize splitId ratio =>
    refine ⟨updateSplitRatio_invariant inv, ?_⟩
    change SameViews (root.updateSplitRatio splitId ratio).leaves root.leaves
    rw [(updateSplitRatio_spec root).1]
    exact .refl _

/-- Without a workspace there is nothing to operate on; else every allowed operation keeps the
invariant, the regrouping ones keep the views, and a refused one returns what it was given. -/
theorem workspace_operations_keep (operation : WorkspaceOperation) :
    operation.apply none = none ∧
      ∀ root, WorkspaceInvariant (some root) → operation.Allowed root →
        WorkspaceInvariant (operation.apply (some root)) ∧ operation.ViewsKept root ∧
          (operation.Refused root → operation.apply (some root) = some root) := by
  constructor
  · cases operation <;> first | rfl | exact ite_self _
  · intro root inv allowed
    obtain ⟨after, views⟩ := apply_invariant inv allowed
    exact ⟨after, views, WorkspaceOperation.refused inv allowed⟩

/-- A balanced workspace of panes that all show one session. -/
def workspaceGrid (sessionId : JsString) : Nat → JsString → WorkspaceNode
  | 0, path =>
    let view := createWorkspaceView sessionId (.char 'v' :: path)
    .pane ⟨.char 'p' :: path, view.id, [view], sessionId, [sessionId]⟩
  | levels + 1, path =>
    .split (.char 's' :: path) .horizontal (1 / 2)
      (workspaceGrid sessionId levels (.char 'a' :: path))
      (workspaceGrid sessionId levels (.char 'b' :: path))

theorem workspaceGrid_invariant : WorkspaceInvariant (some (workspaceGrid [.char 's'] 4 [])) where
  panes :=
    { ids := by decide
      viewIds := by decide
      each := fun pane mem =>
        ⟨(by decide : ∀ pane ∈ (workspaceGrid [.char 's'] 4 []).leaves,
          pane.activeViewId ∈ pane.views.map (·.id)) pane mem,
        (by decide : ∀ pane ∈ (workspaceGrid [.char 's'] 4 []).leaves,
          pane.views.length ≤ maxWorkspaceGroupTabs) pane mem⟩
      count := by decide }
  splitIds := by decide
  apart := by decide
  depth := by decide
  ratios := by decide +kernel

/-- A swap, and a merge with a pane that is not there. -/
theorem grid_swapped :
    WorkspaceInvariant (swapWorkspacePanes (some (workspaceGrid [.char 's'] 4 []))
        (jsString "paaaa") (jsString "pbbbb")) ∧
      SameViews (workspacePaneLeaves (swapWorkspacePanes (some (workspaceGrid [.char 's'] 4 []))
        (jsString "paaaa") (jsString "pbbbb"))) (workspaceGrid [.char 's'] 4 []).leaves ∧
      mergeWorkspacePaneGroups (some (workspaceGrid [.char 's'] 4 [])) (jsString "paaaa")
        (jsString "gone") = some (workspaceGrid [.char 's'] 4 []) := by
  obtain ⟨-, swaps⟩ := workspace_operations_keep (.swap (jsString "paaaa") (jsString "pbbbb"))
  obtain ⟨-, merges⟩ := workspace_operations_keep (.merge (jsString "paaaa") (jsString "gone"))
  obtain ⟨after, views, -⟩ := swaps _ workspaceGrid_invariant trivial
  obtain ⟨-, -, refused⟩ := merges _ workspaceGrid_invariant trivial
  exact ⟨after, views, refused (inr (inr (inl (by decide))))⟩

/-- A full workspace is split once more; and a session that moves to a pane that shows it already
leaves one view less. -/
theorem seventeenth_pane :
    let root := workspaceGrid [.char 's'] 4 []
    WorkspaceInvariant (some root) ∧ NewGroup root (jsString "new") (jsString "beside") ∧
      jsString "fresh" ∉ viewIdsOf root.leaves ∧
      ¬ WorkspaceInvariant (splitWorkspacePane root (jsString "paaaa") .vertical [.char 's']
        (jsString "new") (jsString "beside") (jsString "fresh") .second) ∧
      ¬ SameViews (workspacePaneLeaves (moveWorkspacePaneSession (some root) (jsString "paaaa")
        (jsString "pbbbb") [.char 's'])) root.leaves := by
  refine ⟨workspaceGrid_invariant,
    ⟨by decide, by decide, by decide⟩, by decide, fun inv => ?_,
    fun same => ?_⟩
  · have count := inv.panes.count
    revert count
    decide +kernel
  · have length := same.length_eq
    revert length
    decide

end Operations

end PortMate
