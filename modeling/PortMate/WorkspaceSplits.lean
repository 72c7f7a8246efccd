import PortMate.WorkspaceMoves

namespace PortMate

open List Option

section SplitAtDepth

variable {paneId : JsString} {direction : WorkspaceSplitDirection} {nextPane : WorkspacePane}
  {splitId : JsString} {placement : WorkspaceSplitPlacement}

/-- Some pane with the id is above the deepest level. -/
def splittable (paneId : JsString) (node : WorkspaceNode) (depth : Nat) : Bool :=
  (workspacePaneDepth paneId node depth).any (· < maxWorkspaceDepth)

theorem splittable_split {id : JsString} {splitDirection : WorkspaceSplitDirection} {ratio : ℚ}
    {first second : WorkspaceNode} {depth : Nat} :
    splittable paneId (.split id splitDirection ratio first second) depth =
      (splittable paneId first (depth + 1) || splittable paneId second (depth + 1)) := by
  unfold splittable
  rw [workspacePaneDepth]
  cases workspacePaneDepth paneId first (depth + 1) with
  | none => cases workspacePaneDepth paneId second (depth + 1) <;> rfl
  | some one =>
    cases workspacePaneDepth paneId second (depth + 1) with
    | none => exact (Bool.or_false _).symm
    | some two =>
      simp only [any_some]
      rw [← Bool.decide_or]
      exact decide_eq_decide.mpr (by omega)

theorem splitAtDepth_spec (node : WorkspaceNode) (depth : Nat) :
    (splittable paneId node depth = false ∧
        node.splitAtDepth paneId direction nextPane splitId placement depth = node) ∨
      (splittable paneId node depth = true ∧
        (node.splitAtDepth paneId direction nextPane splitId placement depth).leaves.Perm
          (nextPane :: node.leaves) ∧
        (node.splitAtDepth paneId direction nextPane splitId placement depth).splits.Perm
          ((splitId, 1 / 2) :: node.splits) ∧
        (node.height + depth ≤ maxWorkspaceDepth →
          (node.splitAtDepth paneId direction nextPane splitId placement depth).height + depth ≤
            maxWorkspaceDepth)) := by
  induction node generalizing depth with
  | pane leaf =>
    unfold WorkspaceNode.splitAtDepth splittable workspacePaneDepth
    by_cases named : leaf.id = paneId
    · by_cases deep : maxWorkspaceDepth ≤ depth
      · left
        simp [named, deep]
      · right
        rw [if_pos named, if_neg (by simp [named, deep])]
        refine ⟨decide_eq_true (Nat.lt_of_not_le deep), ?_, ?_, fun _ => ?_⟩
        · cases placement with
          | first => exact .refl _
          | second => exact .swap _ _ _
        · cases placement <;> exact .refl _
        · cases placement <;> (change 1 + depth ≤ _; omega)
    · left
      simp [named]
  | split id splitDirection ratio first second ihFirst ihSecond =>
    rw [splittable_split]
    unfold WorkspaceNode.splitAtDepth
    dsimp only
    rcases ihFirst (depth + 1) with ⟨absent, same⟩ | ⟨present, leaves, splits, height⟩
    · rw [if_neg (not_not.mpr same), absent, Bool.false_or]
      rcases ihSecond (depth + 1) with ⟨none, equal⟩ | ⟨present, leaves, splits, height⟩
      · left
        rw [equal]
        exact ⟨none, rfl⟩
      · right
        refine ⟨present, ?_, ?_, fun bound => ?_⟩
        · exact (leaves.append_left first.leaves).trans perm_middle
        · refine ((splits.append_left first.splits).cons (id, ratio)).trans ?_
          exact (perm_middle.cons _).trans (.swap _ _ _)
        · have deep : max first.height second.height + 1 + depth ≤ maxWorkspaceDepth := bound
          have below := height (by omega)
          change max first.height _ + 1 + depth ≤ maxWorkspaceDepth
          omega
    · have changed : first.splitAtDepth paneId direction nextPane splitId placement (depth + 1) ≠
          first := by
        intro same
        have length := leaves.length_eq
        rw [same, length_cons] at length
        omega
      right
      rw [if_pos changed, present, Bool.true_or]
      refine ⟨rfl, leaves.append_right second.leaves, ?_, fun bound => ?_⟩
      · exact ((splits.append_right second.splits).cons (id, ratio)).trans (.swap _ _ _)
      · have deep : max first.height second.height + 1 + depth ≤ maxWorkspaceDepth := bound
        have below := height (by omega)
        change max _ second.height + 1 + depth ≤ maxWorkspaceDepth
        omega

theorem KindwiseInvariant.splitAtDepth {node : WorkspaceNode}
    (inv : KindwiseInvariant (some node)) (pane : PaneInvariant nextPane)
    (viewIds : (nextPane.views.map (·.id)).Nodup)
    (freshViews : ∀ id ∈ nextPane.views.map (·.id), id ∉ viewIdsOf node.leaves)
    (freshPane : nextPane.id ∉ node.leaves.map (·.id))
    (freshSplit : splitId ∉ node.splits.map (·.1)) (room : node.leaves.length < maxWorkspacePanes) :
    KindwiseInvariant (some (node.splitAtDepth paneId direction nextPane splitId placement 0)) := by
  rcases @splitAtDepth_spec paneId direction nextPane splitId placement node 0 with
    ⟨-, same⟩ | ⟨-, leaves, splits, height⟩
  · rw [same]
    exact inv
  · have panes : PanesInvariant node.leaves := inv.panes
    have splitIds := splits.map Prod.fst
    rw [map_cons] at splitIds
    constructor
    · refine PanesInvariant.perm ?_ leaves.symm
      refine @PanesInvariant.replace [] [nextPane] node.leaves panes (nodup_singleton _) ?_ ?_
        ?_ ?_ ?_
      · intro id mem
        rw [map_singleton, mem_singleton] at mem
        exact Or.inr (mem ▸ freshPane)
      · rw [viewIdsOf_cons]
        change (_ ++ []).Nodup
        rw [append_nil]
        exact viewIds
      · intro id mem
        rw [viewIdsOf_cons] at mem
        change id ∈ _ ++ [] at mem
        rw [append_nil] at mem
        exact Or.inr (freshViews id mem)
      · intro other mem
        rwa [mem_singleton.mp mem]
      · rw [length_singleton]
        omega
    · change ((node.splitAtDepth paneId direction nextPane splitId placement 0).splits.map
        (·.1)).Nodup
      rw [splitIds.nodup_iff, nodup_cons]
      exact ⟨freshSplit, inv.splitIds⟩
    · exact height inv.depth
    · intro split mem
      rcases mem_cons.mp (splits.subset mem) with rfl | old
      · unfold minWorkspaceSplitRatio maxWorkspaceSplitRatio
        norm_num
      · exact inv.ratios split old

theorem WorkspaceInvariant.splitAtDepth {node : WorkspaceNode}
    (inv : WorkspaceInvariant (some node)) (pane : PaneInvariant nextPane)
    (viewIds : (nextPane.views.map (·.id)).Nodup)
    (freshViews : ∀ id ∈ nextPane.views.map (·.id), id ∉ viewIdsOf node.leaves)
    (freshPane : nextPane.id ∉ node.leaves.map (·.id) ++ node.splits.map (·.1))
    (freshSplit : splitId ∉ node.leaves.map (·.id) ++ node.splits.map (·.1))
    (apart : nextPane.id ≠ splitId) (room : node.leaves.length < maxWorkspacePanes) :
    WorkspaceInvariant (some (node.splitAtDepth paneId direction nextPane splitId placement 0)) := by
  rw [mem_append, not_or] at freshPane freshSplit
  refine (inv.kindwise.splitAtDepth pane viewIds freshViews freshPane.1 freshSplit.2
    room).of_apart ?_
  rcases @splitAtDepth_spec paneId direction nextPane splitId placement node 0 with
    ⟨-, same⟩ | ⟨-, leaves, splits, -⟩
  · rw [same]
    exact inv.apart
  · intro id mem there
    rcases mem_cons.mp ((leaves.map WorkspacePane.id).subset mem) with rfl | oldPane
    · rcases mem_cons.mp ((splits.map Prod.fst).subset there) with same | oldSplit
      · exact apart same
      · exact freshPane.2 oldSplit
    · rcases mem_cons.mp ((splits.map Prod.fst).subset there) with rfl | oldSplit
      · exact freshSplit.1 oldPane
      · exact inv.apart id oldPane oldSplit

end SplitAtDepth

section Groups

variable {root : WorkspaceNode} {direction : WorkspaceSplitDirection} {newPaneId splitId : JsString}
  {placement : WorkspaceSplitPlacement}

/-- The ids of a new pane and of its split are new. -/
structure NewGroup (root : WorkspaceNode) (newPaneId splitId : JsString) : Prop where
  pane : newPaneId ∉ root.leaves.map (·.id) ++ root.splits.map (·.1)
  split : splitId ∉ root.leaves.map (·.id) ++ root.splits.map (·.1)
  apart : newPaneId ≠ splitId

theorem NewGroup.of_removed {node : WorkspaceNode} {source : WorkspacePane} {view : WorkspaceView}
    (new : NewGroup root newPaneId splitId) (removed : ViewRemoved root source view (some node)) :
    NewGroup node newPaneId splitId := by
  have known : ∀ id, id ∈ node.leaves.map (·.id) ++ node.splits.map (·.1) →
      id ∈ root.leaves.map (·.id) ++ root.splits.map (·.1) := by
    intro id mem
    rcases mem_append.mp mem with pane | split
    · exact mem_append_left _ (removed.ids id pane)
    · exact mem_append_right _ (removed.splits id split)
  exact ⟨fun mem => new.pane (known _ mem), fun mem => new.split (known _ mem), new.apart⟩

theorem createWorkspacePaneFromViews_one (id : JsString) (view : WorkspaceView) :
    ∃ pane, createWorkspacePaneFromViews id [view] view.id = some pane ∧ pane.id = id ∧
      pane.views = [normalizeView view] ∧ PaneInvariant pane :=
  createWorkspacePaneFromViews_spec (cons_ne_nil _ _) (by unfold maxWorkspaceGroupTabs; simp)

theorem splitWorkspacePaneWithView_invariant (inv : WorkspaceInvariant (some root))
    (new : NewGroup root newPaneId splitId) {view : WorkspaceView}
    (fresh : view.id ∉ viewIdsOf root.leaves) (room : root.leaves.length < maxWorkspacePanes)
    (paneId : JsString) :
    WorkspaceInvariant
      (splitWorkspacePaneWithView root paneId direction view newPaneId splitId placement) := by
  obtain ⟨nextPane, made, id, views, pane⟩ := createWorkspacePaneFromViews_one newPaneId view
  unfold splitWorkspacePaneWithView
  rw [made, map_some]
  refine inv.splitAtDepth pane ?_ ?_ (id ▸ new.pane) new.split (id ▸ new.apart) room
  · rw [views]
    exact nodup_singleton _
  · intro viewId mem
    rw [views, map_singleton, mem_singleton] at mem
    rw [mem]
    exact fresh

theorem regroup_spec (inv : WorkspaceInvariant (some root)) (new : NewGroup root newPaneId splitId)
    {node : WorkspaceNode} {source : WorkspacePane} {view : WorkspaceView}
    (removed : ViewRemoved root source view (some node))
    (room : node.leaves.length < maxWorkspacePanes) (targetPaneId : JsString) :
    let splitRoot := splitWorkspacePaneWithView node targetPaneId direction view newPaneId splitId
      placement
    let result := if splitRoot = some node then some root else splitRoot
    WorkspaceInvariant result ∧ SameViews (workspacePaneLeaves result) root.leaves ∧
      (splittable targetPaneId node 0 = false → result = some root) := by
  have after := @splitWorkspacePaneWithView_invariant node direction newPaneId splitId placement
    removed.invariant (new.of_removed removed) view removed.gone room targetPaneId
  obtain ⟨nextPane, made, -, views, -⟩ := createWorkspacePaneFromViews_one newPaneId view
  have result : splitWorkspacePaneWithView node targetPaneId direction view newPaneId splitId
      placement = some (node.splitAtDepth targetPaneId direction nextPane splitId placement 0) := by
    unfold splitWorkspacePaneWithView
    rw [made, map_some]
  dsimp only
  rw [result] at after ⊢
  rcases @splitAtDepth_spec targetPaneId direction nextPane splitId placement node 0 with
    ⟨-, same⟩ | ⟨splits, leaves, -⟩
  · rw [same, if_pos rfl]
    exact ⟨inv, .refl _, fun _ => rfl⟩
  · have changed : ¬some (node.splitAtDepth targetPaneId direction nextPane splitId placement 0) =
        some node := by
      intro same
      have length := leaves.length_eq
      rw [Option.some.inj same, length_cons] at length
      omega
    rw [if_neg changed]
    refine ⟨after, ?_, fun none => ?_⟩
    · refine ((viewsOf_perm leaves).map normalizeView).trans (List.Perm.trans ?_ removed.views)
      change ((nextPane.views ++ viewsOf node.leaves).map normalizeView).Perm _
      rw [views, singleton_append, map_cons, normalizeView_idem]
      exact .refl _
    · rw [none] at splits
      cases splits

theorem splitWorkspacePane_invariant (inv : WorkspaceInvariant (some root))
    (new : NewGroup root newPaneId splitId) {newSessionId newViewId : JsString}
    (session : newSessionId ≠ []) (fresh : newViewId ∉ viewIdsOf root.leaves)
    (room : root.leaves.length < maxWorkspacePanes) (paneId : JsString) :
    WorkspaceInvariant (splitWorkspacePane root paneId direction newSessionId newPaneId splitId
      newViewId placement) := by
  have one : uniqueStrings [newSessionId] = [newSessionId] := by
    cases newSessionId with
    | nil => exact absurd rfl session
    | cons c text => rfl
  obtain ⟨nextPane, made, id, views, pane⟩ := createWorkspacePaneFromViews_one newPaneId
    (createWorkspaceView newSessionId newViewId)
  have given : createWorkspacePane newSessionId newPaneId newViewId = some nextPane := by
    unfold createWorkspacePane
    rw [one]
    exact made
  unfold splitWorkspacePane
  rw [given]
  refine inv.splitAtDepth pane ?_ ?_ (id ▸ new.pane) new.split (id ▸ new.apart) room
  · rw [views]
    exact nodup_singleton _
  · intro viewId mem
    rw [views, map_singleton, mem_singleton] at mem
    rw [mem]
    exact fresh

theorem splitWorkspacePaneViewToGroup_spec (inv : WorkspaceInvariant (some root))
    (new : NewGroup root newPaneId splitId) (sourcePaneId viewId : JsString) :
    let result := splitWorkspacePaneViewToGroup (some root) sourcePaneId viewId direction newPaneId
      splitId placement
    WorkspaceInvariant result ∧ SameViews (workspacePaneLeaves result) root.leaves := by
  have unchanged : WorkspaceInvariant (some root) ∧
      SameViews (workspacePaneLeaves (some root)) root.leaves := ⟨inv, .refl _⟩
  unfold splitWorkspacePaneViewToGroup
  dsimp only
  split
  next => exact unchanged
  next room =>
    split
    next => exact unchanged
    next source found =>
      split
      next => exact unchanged
      next view shown =>
        split
        next => exact unchanged
        next more =>
          have removed := removeWorkspacePaneView_spec inv found shown
          split
          next => exact unchanged
          next node left =>
            rw [left] at removed
            have count := removed.count
            rw [if_pos (Nat.lt_of_not_le more)] at count
            have fits : node.leaves.length < maxWorkspacePanes := by
              have same : node.leaves.length = root.leaves.length := count
              have few : ¬ maxWorkspacePanes ≤ root.leaves.length := room
              omega
            have result := @regroup_spec root direction newPaneId splitId placement inv new node
              source view removed fits sourcePaneId
            exact ⟨result.1, result.2.1⟩

theorem splitWorkspacePaneSessionToGroup_spec (inv : WorkspaceInvariant (some root))
    (new : NewGroup root newPaneId splitId) (sourcePaneId sessionId : JsString) :
    let result := splitWorkspacePaneSessionToGroup (some root) sourcePaneId sessionId direction
      newPaneId splitId placement
    WorkspaceInvariant result ∧ SameViews (workspacePaneLeaves result) root.leaves := by
  unfold splitWorkspacePaneSessionToGroup
  dsimp only
  split
  next view _ => exact splitWorkspacePaneViewToGroup_spec inv new sourcePaneId view.id
  next => exact ⟨inv, .refl _⟩

theorem moveWorkspacePaneViewToNewGroup_spec (inv : WorkspaceInvariant (some root))
    (new : NewGroup root newPaneId splitId) (sourcePaneId targetPaneId viewId : JsString) :
    let result := moveWorkspacePaneViewToNewGroup (some root) sourcePaneId targetPaneId viewId
      direction newPaneId splitId placement
    WorkspaceInvariant result ∧ SameViews (workspacePaneLeaves result) root.leaves := by
  have unchanged : WorkspaceInvariant (some root) ∧
      SameViews (workspacePaneLeaves (some root)) root.leaves := ⟨inv, .refl _⟩
  unfold moveWorkspacePaneViewToNewGroup
  dsimp only
  split
  next source _ found _ =>
    split
    next => exact unchanged
    next view shown =>
      split
      · exact unchanged
      · generalize delta : (if 1 < source.views.length then 1 else 0) = paneDelta
        split
        next => exact unchanged
        next room =>
          have removed := removeWorkspacePaneView_spec inv found shown
          split
          next => exact unchanged
          next node left =>
            split
            · exact unchanged
            · rw [left] at removed
              have count : node.leaves.length + (if 1 < source.views.length then 0 else 1) =
                  root.leaves.length := removed.count
              have few : ¬ maxWorkspacePanes < root.leaves.length + paneDelta := room
              have fits : node.leaves.length < maxWorkspacePanes := by
                split at count <;> split at delta <;> omega
              have result := @regroup_spec root direction newPaneId splitId placement inv new node
                source view removed fits targetPaneId
              exact ⟨result.1, result.2.1⟩
  next => exact unchanged

end Groups

end PortMate
