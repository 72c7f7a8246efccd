import PortMate.WorkspaceMoves
import PortMate.WorkspaceSanitize

namespace PortMate

open List Nat Option

/-- A pane that sanitizing would not change. -/
structure PaneInForm (pane : WorkspacePane) : Prop where
  invariant : PaneInvariant pane
  colors : ∀ view ∈ pane.views, sanitizeColorText view.color = view.color
  sessions : ∀ view ∈ pane.views, view.sessionId ≠ []
  sessionIds : pane.sessionIds = pane.views.map (·.sessionId)
  active : ∃ view ∈ pane.views, view.id = pane.activeViewId ∧ view.sessionId = pane.sessionId

def nodeIdsOf (panes : List WorkspacePane) (splits : List (JsString × ℚ)) : List JsString :=
  panes.map (·.id) ++ splits.map (·.1)

/-- What a stretch of sanitizing made: the panes and splits have new ids, which are taken now. -/
structure Made (before after : SanitizeState) (panes : List WorkspacePane)
    (splits : List (JsString × ℚ)) : Prop where
  ids : ∀ id ∈ before.ids, id ∈ after.ids
  viewIds : ∀ id ∈ before.viewIds, id ∈ after.viewIds
  nodeIds : (nodeIdsOf panes splits).Nodup
  newIds : ∀ id ∈ nodeIdsOf panes splits, id ∉ before.ids ∧ id ∈ after.ids
  distinctViews : (viewIdsOf panes).Nodup
  newViewIds : ∀ id ∈ viewIdsOf panes, id ∉ before.viewIds ∧ id ∈ after.viewIds
  inForm : ∀ pane ∈ panes, PaneInForm pane
  ratios : ∀ split ∈ splits, minWorkspaceSplitRatio ≤ split.2 ∧ split.2 ≤ maxWorkspaceSplitRatio
  count : after.paneCount = before.paneCount + panes.length
  limit : before.paneCount ≤ maxWorkspacePanes → after.paneCount ≤ maxWorkspacePanes

section Made

variable {before middle after : SanitizeState}

theorem Made.refl (state : SanitizeState) : Made state state [] [] :=
  ⟨fun _ => id, fun _ => id, nodup_nil, nofun, nodup_nil, nofun, nofun, nofun, rfl, id⟩

theorem nodeIdsOf_append (panes others : List WorkspacePane) (splits more : List (JsString × ℚ)) :
    (nodeIdsOf (panes ++ others) (splits ++ more)).Perm
      (nodeIdsOf panes splits ++ nodeIdsOf others more) := by
  unfold nodeIdsOf
  rw [map_append, map_append, append_assoc, append_assoc]
  exact List.Perm.append_left _ (perm_append_comm_assoc _ _ _)

theorem Made.trans {panes others : List WorkspacePane} {splits more : List (JsString × ℚ)}
    (first : Made before middle panes splits) (second : Made middle after others more) :
    Made before after (panes ++ others) (splits ++ more) where
  ids := fun id mem => second.ids id (first.ids id mem)
  viewIds := fun id mem => second.viewIds id (first.viewIds id mem)
  nodeIds := by
    rw [(nodeIdsOf_append panes others splits more).nodup_iff, nodup_append]
    refine ⟨first.nodeIds, second.nodeIds, fun id here other there same => ?_⟩
    subst same
    exact (second.newIds id there).1 (first.newIds id here).2
  newIds := by
    intro id mem
    rcases mem_append.mp ((nodeIdsOf_append panes others splits more).subset mem) with
      here | there
    · exact ⟨(first.newIds id here).1, second.ids id (first.newIds id here).2⟩
    · exact ⟨fun old => (second.newIds id there).1 (first.ids id old), (second.newIds id there).2⟩
  distinctViews := by
    rw [viewIdsOf_append, nodup_append]
    refine ⟨first.distinctViews, second.distinctViews, fun id here other there same => ?_⟩
    subst same
    exact (second.newViewIds id there).1 (first.newViewIds id here).2
  newViewIds := by
    intro id mem
    rw [viewIdsOf_append] at mem
    rcases mem_append.mp mem with here | there
    · exact ⟨(first.newViewIds id here).1, second.viewIds id (first.newViewIds id here).2⟩
    · exact ⟨fun old => (second.newViewIds id there).1 (first.viewIds id old),
        (second.newViewIds id there).2⟩
  inForm := fun pane mem =>
    (mem_append.mp mem).elim (first.inForm pane) (second.inForm pane)
  ratios := fun split mem =>
    (mem_append.mp mem).elim (first.ratios split) (second.ratios split)
  count := by
    rw [second.count, first.count, length_append, Nat.add_assoc]
  limit := fun room => second.limit (first.limit room)

theorem uniqueNodeId_fresh (requested : JsString) (state : SanitizeState) :
    (uniqueNodeId requested state).1 ∉ state.ids :=
  firstFree_not_mem (numbered_injective requested) state.ids

theorem uniqueViewId_fresh (requested : JsString) (state : SanitizeState) :
    (uniqueViewId requested state).1 ∉ state.viewIds := fun taken =>
  firstFree_not_mem (numbered_injective requested) (state.viewIds ++ state.ids)
    (mem_append_left _ taken)

theorem Made.split (requested : JsString) (state : SanitizeState) {ratio : ℚ}
    (bounds : minWorkspaceSplitRatio ≤ ratio ∧ ratio ≤ maxWorkspaceSplitRatio) :
    Made state (uniqueNodeId requested state).2 [] [((uniqueNodeId requested state).1, ratio)] where
  ids := fun _ mem => .tail _ mem
  viewIds := fun _ mem => mem
  nodeIds := nodup_singleton _
  newIds := by
    intro id mem
    rw [mem_singleton.mp mem]
    exact ⟨uniqueNodeId_fresh requested state, .head _⟩
  distinctViews := nodup_nil
  newViewIds := nofun
  inForm := nofun
  ratios := by
    intro split mem
    rw [mem_singleton.mp mem]
    exact bounds
  count := rfl
  limit := id

theorem Made.perm_splits {panes : List WorkspacePane} {splits others : List (JsString × ℚ)}
    (made : Made before after panes splits) (perm : splits.Perm others) :
    Made before after panes others := by
  have ids : (nodeIdsOf panes splits).Perm (nodeIdsOf panes others) := (perm.map _).append_left _
  exact ⟨made.ids, made.viewIds, ids.nodup_iff.mp made.nodeIds,
    fun id mem => made.newIds id (ids.symm.subset mem), made.distinctViews, made.newViewIds,
    made.inForm, fun split mem => made.ratios split (perm.symm.subset mem), made.count, made.limit⟩

end Made

section Views

/-- What naming views leaves: their ids are new ones, taken in this order. -/
structure Named (before after : SanitizeState) (views : List WorkspaceView) : Prop where
  ids : after.ids = before.ids
  paneCount : after.paneCount = before.paneCount
  viewIds : after.viewIds = (views.map (·.id)).reverse ++ before.viewIds
  nodup : (views.map (·.id)).Nodup
  fresh : ∀ id ∈ views.map (·.id), id ∉ before.viewIds
  sessions : ∀ view ∈ views, view.sessionId ≠ []
  colors : ∀ view ∈ views, sanitizeColorText view.color = view.color

theorem Named.nil (state : SanitizeState) : Named state state [] :=
  ⟨rfl, rfl, rfl, nodup_nil, nofun, nofun, nofun⟩

theorem Named.cons {before after : SanitizeState} {requested : JsString} {view : WorkspaceView}
    {views : List WorkspaceView} (id : view.id = (uniqueViewId requested before).1)
    (session : view.sessionId ≠ []) (color : sanitizeColorText view.color = view.color)
    (rest : Named (uniqueViewId requested before).2 after views) :
    Named before after (view :: views) where
  ids := rest.ids
  paneCount := rest.paneCount
  viewIds := by
    rw [rest.viewIds, map_cons, reverse_cons, append_assoc, id]
    rfl
  nodup := by
    rw [map_cons, nodup_cons]
    refine ⟨fun mem => rest.fresh _ mem ?_, rest.nodup⟩
    rw [id]
    exact .head _
  fresh := by
    intro other mem
    rcases mem_cons.mp mem with rfl | later
    · change view.id ∉ before.viewIds
      rw [id]
      exact uniqueViewId_fresh requested before
    · exact fun old => rest.fresh other later (.tail _ old)
  sessions := forall_mem_cons.mpr ⟨session, rest.sessions⟩
  colors := forall_mem_cons.mpr ⟨color, rest.colors⟩

theorem defaultViews_named (paneId : JsString) {sessionIds : List JsString}
    (filled : ∀ sessionId ∈ sessionIds, sessionId ≠ []) (index : Nat) (state : SanitizeState) :
    Named state (defaultViews paneId sessionIds index state).2
        (defaultViews paneId sessionIds index state).1 ∧
      (defaultViews paneId sessionIds index state).1.length = sessionIds.length := by
  induction sessionIds generalizing index state with
  | nil => exact ⟨.nil state, rfl⟩
  | cons sessionId sessionIds ih =>
    obtain ⟨named, length⟩ := ih (fun other mem => filled other (.tail _ mem)) (index + 1)
      (uniqueViewId (defaultViewId paneId index) state).2
    exact ⟨.cons rfl (filled sessionId (.head _)) rfl named, congrArg (· + 1) length⟩

variable (isOther : JsChar → Bool)

theorem sanitizeView_some {item : JsValue} {paneId : JsString} {index : Nat}
    {state after : SanitizeState} {view : WorkspaceView}
    (kept : sanitizeView isOther item paneId index state = some (view, after)) :
    ∃ requested, view.id = (uniqueViewId requested state).1 ∧
      after = (uniqueViewId requested state).2 ∧ view.sessionId ≠ [] ∧
      sanitizeColorText view.color = view.color := by
  unfold sanitizeView at kept
  split at kept
  next => cases kept
  next source _ =>
    dsimp only at kept
    split at kept
    next => cases kept
    next session =>
      obtain ⟨rfl, rfl⟩ := Prod.mk.inj (Option.some.inj kept)
      refine ⟨_, rfl, rfl, fun empty => session (List.isEmpty_iff.mpr empty), ?_⟩
      · change sanitizeColorText (sanitizeViewColor _) = sanitizeViewColor _
        unfold sanitizeViewColor
        split
        next text _ => exact sanitizeColorText_idem text
        next => rfl

theorem sanitizeViewsFrom_named (paneId : JsString) (items : List JsValue) (index room : Nat)
    (state : SanitizeState) :
    Named state (sanitizeViewsFrom isOther paneId items index room state).2
        (sanitizeViewsFrom isOther paneId items index room state).1 ∧
      (sanitizeViewsFrom isOther paneId items index room state).1.length ≤ room := by
  induction items generalizing index room state with
  | nil => exact ⟨.nil state, Nat.zero_le _⟩
  | cons item items ih =>
    cases room with
    | zero => exact ⟨.nil state, Nat.le_refl 0⟩
    | succ room =>
      unfold sanitizeViewsFrom
      split
      next => exact ih (index + 1) (room + 1) state
      next view next kept =>
        obtain ⟨requested, id, rfl, session, color⟩ := sanitizeView_some isOther kept
        obtain ⟨named, length⟩ := ih (index + 1) room (uniqueViewId requested state).2
        exact ⟨named.cons id session color, succ_le_succ length⟩

end Views

section Nodes

theorem Made.pane {start after : SanitizeState} {requested activeViewId : JsString}
    {views : List WorkspaceView} (named : Named (uniqueNodeId requested start).2 after views)
    (filled : views ≠ []) (few : views.length ≤ maxWorkspaceGroupTabs)
    (room : start.paneCount < maxWorkspacePanes) :
    ∃ pane, createWorkspacePaneFromViews (uniqueNodeId requested start).1 views activeViewId =
        some pane ∧
      pane.id = (uniqueNodeId requested start).1 ∧ pane.views = views.map normalizeView ∧
      Made start { after with paneCount := after.paneCount + 1 } [pane] [] := by
  have colors : views.map normalizeView = views := by
    refine (map_congr_left fun view mem => ?_).trans (map_id views)
    unfold normalizeView
    rw [named.colors view mem]
    rfl
  obtain ⟨pane, made, id, shown, invariant⟩ := @createWorkspacePaneFromViews_spec
    (uniqueNodeId requested start).1 activeViewId views filled few
  refine ⟨pane, made, id, shown, ?_⟩
  have ids : pane.views.map (·.id) = views.map (·.id) := by
    rw [shown, normalizeView_ids]
  have viewIds : viewIdsOf [pane] = views.map (·.id) := by
    rw [← ids]
    exact append_nil _
  constructor
  · intro other mem
    change other ∈ after.ids
    rw [named.ids]
    exact .tail _ mem
  · intro other mem
    change other ∈ after.viewIds
    rw [named.viewIds]
    exact mem_append_right _ mem
  · exact nodup_singleton _
  · intro other mem
    rw [mem_singleton.mp mem]
    change pane.id ∉ start.ids ∧ pane.id ∈ after.ids
    rw [named.ids, id]
    exact ⟨uniqueNodeId_fresh requested start, .head _⟩
  · rw [viewIds]
    exact named.nodup
  · intro other mem
    rw [viewIds] at mem
    change other ∉ start.viewIds ∧ other ∈ after.viewIds
    rw [named.viewIds]
    exact ⟨named.fresh other mem, mem_append_left _ (mem_reverse.mpr mem)⟩
  · intro other mem
    rw [mem_singleton.mp mem]
    obtain ⟨sessionIds, active⟩ := createWorkspacePaneFromViews_sessions made
    refine ⟨invariant, ?_, ?_, sessionIds, active⟩
    · rw [shown, colors]
      exact named.colors
    · rw [shown, colors]
      exact named.sessions
  · exact nofun
  · change after.paneCount + 1 = _
    rw [named.paneCount]
    rfl
  · intro _
    change after.paneCount + 1 ≤ _
    rw [named.paneCount]
    exact room

theorem Made.nothing {before after : SanitizeState} (ids : ∀ id ∈ before.ids, id ∈ after.ids)
    (viewIds : ∀ id ∈ before.viewIds, id ∈ after.viewIds)
    (count : after.paneCount = before.paneCount) : Made before after [] [] where
  ids := ids
  viewIds := viewIds
  nodeIds := nodup_nil
  newIds := nofun
  distinctViews := nodup_nil
  newViewIds := nofun
  inForm := nofun
  ratios := nofun
  count := count
  limit := fun room => count ▸ room

theorem Named.taken {requested : JsString} {start after : SanitizeState}
    {views : List WorkspaceView} (named : Named (uniqueNodeId requested start).2 after views) :
    Made start after [] [] := by
  refine .nothing (fun id mem => ?_) (fun id mem => ?_) ?_
  · rw [named.ids]
    exact .tail _ mem
  · rw [named.viewIds]
    exact mem_append_right _ mem
  · rw [named.paneCount]
    rfl

theorem uniqueStrings_filled (texts : List JsString) : ∀ text ∈ uniqueStrings texts, text ≠ [] := by
  induction texts with
  | nil => exact nofun
  | cons first texts ih =>
    have rest : ∀ text ∈ (uniqueStrings texts).filter (· ≠ first), text ≠ [] :=
      fun text mem => ih text (mem_filter.mp mem).1
    unfold uniqueStrings
    dsimp only
    split
    next => exact rest
    next filled =>
      refine forall_mem_cons.mpr ⟨fun empty => filled ?_, rest⟩
      rw [empty]
      rfl

theorem createSanitizedPane_made (sessionId id : JsString) (state : SanitizeState) :
    Made state (createSanitizedPane sessionId id state).2
      (createSanitizedPane sessionId id state).1.toList [] := by
  unfold createSanitizedPane
  split
  next => exact .refl state
  next room =>
    dsimp only
    obtain ⟨named, length⟩ := defaultViews_named (uniqueNodeId id state).1
      (fun text mem => uniqueStrings_filled [sessionId] text (mem_of_mem_take mem)) 0
      (uniqueNodeId id state).2
    split
    next => exact named.taken
    next activeView active =>
      have filled : (defaultViews (uniqueNodeId id state).1
          ((uniqueStrings [sessionId]).take maxWorkspaceGroupTabs) 0
          (uniqueNodeId id state).2).1 ≠ [] := by
        intro empty
        rw [empty] at active
        cases active
      obtain ⟨pane, made, -, -, part⟩ := @Made.pane _ _ _ activeView.id _ named filled
        (length ▸ length_take_le _ _) (Nat.lt_of_not_le room)
      rw [made]
      exact part

variable (isOther : JsChar → Bool)

theorem sanitizeWorkspaceViews_named (value : Option JsValue) (paneId : JsString)
    (state : SanitizeState) :
    Named state (sanitizeWorkspaceViews isOther value paneId state).2
        (sanitizeWorkspaceViews isOther value paneId state).1 ∧
      (sanitizeWorkspaceViews isOther value paneId state).1.length ≤ maxWorkspaceGroupTabs := by
  unfold sanitizeWorkspaceViews
  split
  next _ items => exact sanitizeViewsFrom_named isOther paneId items 0 maxWorkspaceGroupTabs state
  next => exact ⟨.nil state, Nat.zero_le _⟩

theorem Named.after_none {before middle after : SanitizeState} {views : List WorkspaceView}
    (none : Named before middle []) (rest : Named middle after views) : Named before after views where
  ids := rest.ids.trans none.ids
  paneCount := rest.paneCount.trans none.paneCount
  viewIds := by
    rw [rest.viewIds, none.viewIds]
    rfl
  nodup := rest.nodup
  fresh := fun id mem old => rest.fresh id mem (none.viewIds ▸ old)
  sessions := rest.sessions
  colors := rest.colors

variable (source : List (JsString × JsValue))

theorem requestedLegacyIds_filled : ∀ text ∈ requestedLegacyIds isOther source, text ≠ [] := by
  have rest := uniqueStrings_filled (validStrings isOther (property source "sessionIds"))
  unfold requestedLegacyIds
  dsimp only
  split
  next given =>
    refine forall_mem_cons.mpr ⟨fun empty => ?_, rest⟩
    rw [empty] at given
    cases given
  next => exact rest

theorem sanitizePaneViews_named (paneId : JsString) (state : SanitizeState) :
    Named state (sanitizePaneViews isOther source paneId state).2
        (sanitizePaneViews isOther source paneId state).1 ∧
      (sanitizePaneViews isOther source paneId state).1.length ≤ maxWorkspaceGroupTabs := by
  obtain ⟨stored, few⟩ :=
    sanitizeWorkspaceViews_named isOther (property source "views") paneId state
  unfold sanitizePaneViews
  dsimp only
  split
  next none =>
    rw [List.isEmpty_iff.mp none] at stored
    obtain ⟨named, length⟩ := @defaultViews_named paneId
      ((requestedLegacyIds isOther source).take maxWorkspaceGroupTabs)
      (fun text mem => requestedLegacyIds_filled isOther source text (mem_of_mem_take mem)) 0
      (sanitizeWorkspaceViews isOther (property source "views") paneId state).2
    exact ⟨stored.after_none named, length ▸ length_take_le _ _⟩
  next => exact ⟨stored, few⟩

theorem sanitizeWorkspacePane_made (path : JsString) (state : SanitizeState) :
    Made state (sanitizeWorkspacePane isOther source path state).2
      (sanitizeWorkspacePane isOther source path state).1.toList [] := by
  unfold sanitizeWorkspacePane
  generalize orDefault (cleanString isOther (property source "id") 128) (jsString "pane-" ++ path) =
    requested
  obtain ⟨named, few⟩ := sanitizePaneViews_named isOther source (uniqueNodeId requested state).1
    (uniqueNodeId requested state).2
  dsimp only
  split
  next => exact named.taken
  next room =>
    split
    next => exact named.taken
    next activeView active =>
      have filled : (sanitizePaneViews isOther source (uniqueNodeId requested state).1
          (uniqueNodeId requested state).2).1 ≠ [] := by
        intro empty
        rw [empty] at active
        cases active
      have free := Nat.lt_of_not_le room
      rw [named.paneCount] at free
      obtain ⟨pane, made, -, -, part⟩ := @Made.pane _ _ _ activeView.id _ named filled few free
      rw [made]
      exact part

theorem sanitizeWorkspaceNode_made (levels : Nat) (value : Option JsValue) (path : JsString)
    (state : SanitizeState) :
    Made state (sanitizeWorkspaceNode isOther levels value path state).2
        (workspacePaneLeaves (sanitizeWorkspaceNode isOther levels value path state).1)
        (workspaceSplits (sanitizeWorkspaceNode isOther levels value path state).1) ∧
      ∀ node, (sanitizeWorkspaceNode isOther levels value path state).1 = some node →
        node.height < levels := by
  induction levels generalizing value path state with
  | zero => exact ⟨.refl state, nofun⟩
  | succ levels ih =>
    unfold sanitizeWorkspaceNode
    split
    next => exact ⟨.refl state, nofun⟩
    next source _ =>
      split
      · have made := sanitizeWorkspacePane_made isOther source path state
        dsimp only
        generalize sanitizeWorkspacePane isOther source path state = result at made ⊢
        obtain ⟨pane, after⟩ := result
        cases pane with
        | none => exact ⟨made, nofun⟩
        | some leaf =>
          refine ⟨made, fun node given => ?_⟩
          cases Option.some.inj given
          exact succ_pos levels
      · split
        · exact ⟨.refl state, nofun⟩
        · obtain ⟨firstMade, firstHeight⟩ :=
            ih (property source "first") (path ++ jsString "-first") state
          obtain ⟨secondMade, secondHeight⟩ := ih (property source "second")
            (path ++ jsString "-second")
            (sanitizeWorkspaceNode isOther levels (property source "first")
              (path ++ jsString "-first") state).2
          dsimp only
          generalize sanitizeWorkspaceNode isOther levels (property source "first")
            (path ++ jsString "-first") state = result at firstMade firstHeight secondMade secondHeight ⊢
          obtain ⟨first, middle⟩ := result
          dsimp only at firstMade firstHeight secondMade secondHeight ⊢
          generalize sanitizeWorkspaceNode isOther levels (property source "second")
            (path ++ jsString "-second") middle = result at secondMade secondHeight ⊢
          obtain ⟨second, after⟩ := result
          have both := firstMade.trans secondMade
          dsimp only at both secondHeight ⊢
          cases first with
          | none => exact ⟨both, fun node given => lt_succ_of_lt (secondHeight node given)⟩
          | some one =>
            have oneHeight := firstHeight one rfl
            cases second with
            | none =>
              change Made state after (one.leaves ++ []) (one.splits ++ []) at both
              rw [append_nil, append_nil] at both
              refine ⟨both, fun node given => ?_⟩
              cases Option.some.inj given
              exact lt_succ_of_lt oneHeight
            | some two =>
              have twoHeight := secondHeight two rfl
              have split := both.trans (Made.split (orDefault
                (cleanString isOther (property source "id") 128) (jsString "split-" ++ path)) after
                  (normalizeSplitRatio_bounds (numberOf (property source "ratio"))))
              rw [append_nil] at split
              refine ⟨split.perm_splits (perm_append_singleton _ _), fun node given => ?_⟩
              cases Option.some.inj given
              change max one.height two.height + 1 < levels + 1
              omega

end Nodes

section Legacy

theorem uniqueStrings_one {text : JsString} (filled : text ≠ []) : uniqueStrings [text] = [text] := by
  cases text with
  | nil => exact absurd rfl filled
  | cons c text => rfl

theorem createSanitizedPane_some {sessionId : JsString} (filled : sessionId ≠ []) (id : JsString)
    (state : SanitizeState) (room : state.paneCount < maxWorkspacePanes) :
    ∃ pane, (createSanitizedPane sessionId id state).1 = some pane := by
  have one : (uniqueStrings [sessionId]).take maxWorkspaceGroupTabs = [sessionId] := by
    rw [uniqueStrings_one filled]
    rfl
  have shown : (((defaultViews (uniqueNodeId id state).1 [sessionId] 0
      (uniqueNodeId id state).2).1.find? fun view => view.sessionId = sessionId).or
      (defaultViews (uniqueNodeId id state).1 [sessionId] 0 (uniqueNodeId id state).2).1.head?) =
        some (createWorkspaceView sessionId
          (uniqueViewId (defaultViewId (uniqueNodeId id state).1 0) (uniqueNodeId id state).2).1) := by
    unfold defaultViews defaultViews createWorkspaceView
    simp
  unfold createSanitizedPane
  rw [if_neg (Nat.not_le_of_lt room)]
  dsimp only
  rw [one, shown]
  exact ⟨_, rfl⟩

theorem legacy_ratio {count : Nat} (some : 0 < count) (few : count ≤ 3) :
    minWorkspaceSplitRatio ≤ 1 / ((count + 1 : Nat) : ℚ) ∧
      1 / ((count + 1 : Nat) : ℚ) ≤ maxWorkspaceSplitRatio := by
  unfold minWorkspaceSplitRatio maxWorkspaceSplitRatio
  interval_cases count <;> norm_num

theorem buildLegacySplit_made (direction : WorkspaceSplitDirection) {sessionIds : List JsString}
    (some : sessionIds ≠ []) (few : sessionIds.length ≤ 4)
    (filled : ∀ sessionId ∈ sessionIds, sessionId ≠ []) (offset : Nat) (state : SanitizeState)
    (room : state.paneCount + sessionIds.length ≤ maxWorkspacePanes) :
    ∃ node, (buildLegacySplit direction sessionIds offset state).1 = .some node ∧
      node.height < sessionIds.length ∧
      Made state (buildLegacySplit direction sessionIds offset state).2 node.leaves node.splits := by
  induction sessionIds generalizing offset state with
  | nil => exact absurd rfl some
  | cons sessionId sessionIds ih =>
    rw [length_cons] at few room
    obtain ⟨leaf, given⟩ := createSanitizedPane_some (filled sessionId (.head _))
      (jsString "pane-legacy-" ++ decimal offset) state (by omega)
    have firstMade :=
      createSanitizedPane_made sessionId (jsString "pane-legacy-" ++ decimal offset) state
    rw [given] at firstMade
    unfold buildLegacySplit
    generalize createSanitizedPane sessionId (jsString "pane-legacy-" ++ decimal offset) state =
      result at firstMade given ⊢
    obtain ⟨first, middle⟩ := result
    dsimp only at given
    subst given
    dsimp only
    split
    next => exact ⟨.pane leaf, rfl, succ_pos _, firstMade⟩
    next more =>
      have rest : sessionIds ≠ [] := fun empty => more (List.isEmpty_iff.mpr empty)
      have split := Made.split (jsString "split-legacy-" ++ decimal offset) middle
        (legacy_ratio (length_pos_iff.mpr rest) (by omega : sessionIds.length ≤ 3))
      have begun := firstMade.trans split
      have count := begun.count
      obtain ⟨second, built, height, secondMade⟩ := ih rest (by omega)
        (fun other mem => filled other (.tail _ mem)) (offset + 1)
        (uniqueNodeId (jsString "split-legacy-" ++ decimal offset) middle).2 (by
          rw [count]
          change state.paneCount + 1 + _ ≤ _
          omega)
      have both := begun.trans secondMade
      generalize buildLegacySplit direction sessionIds (offset + 1)
        (uniqueNodeId (jsString "split-legacy-" ++ decimal offset) middle).2 = result at built both ⊢
      obtain ⟨last, after⟩ := result
      dsimp only at built
      subst built
      refine ⟨_, rfl, ?_, both⟩
      change max 0 second.height + 1 < sessionIds.length + 1
      omega

end Legacy

/-- What sanitizing makes of a snapshot. -/
structure SnapshotInForm (snapshot : WorkspaceSnapshot) : Prop where
  workspace : WorkspaceInvariant snapshot.root
  panes : ∀ pane ∈ workspacePaneLeaves snapshot.root, PaneInForm pane
  active : (snapshot.root = none ∧ snapshot.activePaneId = [] ∧ snapshot.activeId = []) ∨
    ∃ pane ∈ workspacePaneLeaves snapshot.root,
      pane.id = snapshot.activePaneId ∧ pane.sessionId = snapshot.activeId
  tabColors : ∀ entry ∈ snapshot.tabColors, entry.1 ≠ [] ∧ isViewColor entry.2 = true

section Snapshot

theorem Made.workspace {root : Option WorkspaceNode} {after : SanitizeState}
    (made : Made ⟨[], [], 0⟩ after (workspacePaneLeaves root) (workspaceSplits root))
    (depth : workspaceHeight root ≤ maxWorkspaceDepth) : WorkspaceInvariant root := by
  have nodes := made.nodeIds
  unfold nodeIdsOf at nodes
  rw [nodup_append] at nodes
  have count := made.count
  have limit := made.limit (Nat.zero_le _)
  rw [Nat.zero_add] at count
  refine ⟨⟨nodes.1, made.distinctViews, fun pane mem => (made.inForm pane mem).invariant,
    count ▸ limit⟩, nodes.2.1, fun id pane split => ?_, depth, made.ratios⟩
  exact nodes.2.2 id pane id split rfl

theorem normalizeView_inForm {pane : WorkspacePane} (inForm : PaneInForm pane) :
    pane.views.map normalizeView = pane.views := by
  refine (map_congr_left fun view mem => ?_).trans (map_id pane.views)
  unfold normalizeView
  rw [inForm.colors view mem]
  rfl

theorem reactivated_inForm {pane : WorkspacePane} (inForm : PaneInForm pane)
    (nodup : (pane.views.map (·.id)).Nodup) {view : WorkspaceView} (mem : view ∈ pane.views) :
    ∃ left, createWorkspacePaneFromViews pane.id pane.views view.id = some left ∧
      left.id = pane.id ∧ left.sessionId = view.sessionId ∧ PaneInForm left := by
  have found := find_of_mem nodup mem
  have same := normalizeView_inForm inForm
  have head : ∃ first, pane.views.head? = some first := by
    cases views : pane.views with
    | nil =>
      rw [views] at mem
      cases mem
    | cons first rest => exact ⟨first, rfl⟩
  obtain ⟨first, head⟩ := head
  unfold createWorkspacePaneFromViews
  dsimp only
  rw [take_of_length_le inForm.invariant.viewCount, same, found, head]
  refine ⟨_, rfl, rfl, rfl, ⟨⟨mem_map.mpr ⟨view, mem, rfl⟩, inForm.invariant.viewCount⟩,
    inForm.colors, inForm.sessions, rfl, ⟨view, mem, rfl, rfl⟩⟩⟩

theorem activate_inForm {root : WorkspaceNode} (inv : WorkspaceInvariant (some root))
    (inForm : ∀ pane ∈ root.leaves, PaneInForm pane) {pane : WorkspacePane} (mem : pane ∈ root.leaves)
    {sessionId : JsString} (shown : sessionId ∈ pane.sessionIds) :
    (∀ other ∈ workspacePaneLeaves (activateWorkspacePaneSession (some root) pane.id sessionId),
      PaneInForm other) ∧
    ∃ left ∈ workspacePaneLeaves (activateWorkspacePaneSession (some root) pane.id sessionId),
      left.id = pane.id ∧ left.sessionId = sessionId := by
  have nodup : ∀ other ∈ root.leaves, (other.views.map (·.id)).Nodup :=
    fun other there => viewIdsOf_nodup inv.panes.viewIds there
  have edited : ∀ other ∈ root.leaves, ∀ left, activatePaneSession sessionId other = some left →
      PaneInForm left := by
    intro other there left given
    unfold activatePaneSession at given
    split at given
    · exact Option.some.inj given ▸ inForm other there
    · split at given
      next => exact Option.some.inj given ▸ inForm other there
      next view found =>
        obtain ⟨made, same, -, -, form⟩ := reactivated_inForm (inForm other there)
          (nodup other there) (mem_of_find?_eq_some found)
        exact Option.some.inj (same.symm.trans given) ▸ form
  unfold activateWorkspacePaneSession
  rw [bind_some, leaves_editPanes]
  constructor
  · intro left given
    obtain ⟨other, there, result⟩ := mem_filterMap.mp given
    unfold onPane at result
    split at result
    · exact edited other there left result
    · exact Option.some.inj result ▸ inForm other there
  · by_cases same : pane.sessionId = sessionId
    · refine ⟨pane, mem_filterMap.mpr ⟨pane, mem, ?_⟩, rfl, same⟩
      unfold onPane activatePaneSession
      rw [if_pos rfl, if_pos same]
    · rw [(inForm pane mem).sessionIds] at shown
      obtain ⟨view, there, named⟩ := mem_map.mp shown
      cases found : pane.views.find? fun view => view.sessionId = sessionId with
      | none => simpa [named] using find?_eq_none.mp found view there
      | some first =>
        have session : first.sessionId = sessionId := by simpa using find?_some found
        obtain ⟨left, made, id, active, -⟩ := reactivated_inForm (inForm pane mem)
          (nodup pane mem) (mem_of_find?_eq_some found)
        refine ⟨left, mem_filterMap.mpr ⟨pane, mem, ?_⟩, id, active.trans session⟩
        unfold onPane activatePaneSession
        rw [if_pos rfl, if_neg same, found]
        exact made

variable (isOther : JsChar → Bool)

theorem singlePane_made {before : SanitizeState} {result : Option WorkspacePane × SanitizeState}
    (made : Made before result.2 result.1.toList []) :
    Made before result.2 (workspacePaneLeaves (result.1.map .pane))
        (workspaceSplits (result.1.map .pane)) ∧
      workspaceHeight (result.1.map .pane) ≤ maxWorkspaceDepth := by
  obtain ⟨pane, after⟩ := result
  cases pane <;> exact ⟨made, Nat.zero_le _⟩

theorem validStrings_filled (value : Option JsValue) :
    ∀ text ∈ validStrings isOther value, text ≠ [] := by
  unfold validStrings
  split
  · intro text mem empty
    have filled := (mem_filter.mp mem).2
    rw [empty] at filled
    cases filled
  · exact nofun

variable (source : List (JsString × JsValue))

theorem storedRoot_made :
    Made ⟨[], [], 0⟩ (storedRoot isOther source).2 (workspacePaneLeaves (storedRoot isOther source).1)
        (workspaceSplits (storedRoot isOther source).1) ∧
      workspaceHeight (storedRoot isOther source).1 ≤ maxWorkspaceDepth := by
  unfold storedRoot
  split
  · obtain ⟨made, height⟩ := sanitizeWorkspaceNode_made isOther (maxWorkspaceDepth + 1)
      (property source "root") (jsString "root") ⟨[], [], 0⟩
    refine ⟨made, ?_⟩
    cases root : (sanitizeWorkspaceNode isOther (maxWorkspaceDepth + 1) (property source "root")
        (jsString "root") ⟨[], [], 0⟩).1 with
    | none => exact Nat.zero_le _
    | some node => exact le_of_lt_succ (height node root)
  · unfold migrateLegacyWorkspace
    dsimp only
    split
    next =>
      split
      · exact ⟨.refl _, Nat.zero_le _⟩
      · exact singlePane_made (createSanitizedPane_made _ _ _)
    next layout =>
      have several : 2 ≤ ((validStrings isOther (property source "paneIds")).take 4).length := by
        by_contra short
        refine layout ?_
        rw [decide_eq_true (Nat.lt_of_not_le short), Bool.or_true]
      have few : ((validStrings isOther (property source "paneIds")).take 4).length ≤ 4 :=
        length_take_le _ _
      obtain ⟨node, built, height, made⟩ := buildLegacySplit_made
        (if isVertical (property source "layout") then .vertical else .horizontal)
        (length_pos_iff.mp (Nat.lt_of_lt_of_le Nat.zero_lt_two several)) few
        (fun text mem => validStrings_filled isOther _ text (mem_of_mem_take mem)) 0
        ⟨[], [], 0⟩ (by change 0 + _ ≤ 16; omega)
      rw [built]
      refine ⟨made, ?_⟩
      change node.height ≤ 8
      omega

theorem withSinglePane_spec :
    WorkspaceInvariant (withSinglePane isOther source) ∧
      (∀ pane ∈ workspacePaneLeaves (withSinglePane isOther source), PaneInForm pane) ∧
      (withSinglePane isOther source = none →
        cleanString isOther (property source "activeId") 256 = []) := by
  obtain ⟨made, height⟩ := storedRoot_made isOther source
  unfold withSinglePane
  generalize storedRoot isOther source = stored at made height ⊢
  obtain ⟨root, state⟩ := stored
  dsimp only at made height ⊢
  cases root with
  | some node => exact ⟨made.workspace height, made.inForm, nofun⟩
  | none =>
    rw [none_or]
    split
    next empty => exact ⟨made.workspace height, nofun, fun _ => List.isEmpty_iff.mp empty⟩
    next filled =>
      obtain ⟨single, low⟩ := singlePane_made (createSanitizedPane_made
        (cleanString isOther (property source "activeId") 256) (jsString "pane-active") state)
      have whole := made.trans single
      refine ⟨whole.workspace low, whole.inForm, fun none => ?_⟩
      obtain ⟨pane, given⟩ := createSanitizedPane_some (fun empty => filled (List.isEmpty_iff.mpr empty))
        (jsString "pane-active") state (by
          rw [made.count]
          decide)
      rw [given] at none
      cases none

theorem sanitizeTabColors_spec (value : Option JsValue) :
    ∀ entry ∈ sanitizeTabColors value, entry.1 ≠ [] ∧ isViewColor entry.2 = true := by
  unfold sanitizeTabColors
  split
  · intro entry mem
    obtain ⟨⟨id, color⟩, -, kept⟩ := mem_filterMap.mp mem
    dsimp only at kept
    split at kept
    · split at kept
      next valid =>
        cases Option.some.inj kept
        rw [Bool.and_eq_true] at valid
        refine ⟨fun empty => ?_, valid.2⟩
        have filled := valid.1
        dsimp only at empty
        rw [empty] at filled
        cases filled
      next => cases kept
    · cases kept
  · exact nofun

theorem sanitizeWorkspaceSnapshot_inForm (value : JsValue) :
    SnapshotInForm (sanitizeWorkspaceSnapshot isOther value) := by
  unfold sanitizeWorkspaceSnapshot
  split
  next => exact ⟨⟨⟨nodup_nil, nodup_nil, nofun, Nat.zero_le _⟩, nodup_nil, nofun,
    Nat.zero_le _, nofun⟩, nofun, Or.inl ⟨rfl, rfl, rfl⟩, nofun⟩
  next source _ =>
    obtain ⟨workspace, inForm, noPane⟩ := withSinglePane_spec isOther source
    have colors := sanitizeTabColors_spec (property source "tabColors")
    dsimp only
    generalize withSinglePane isOther source = root at workspace inForm noPane ⊢
    split
    next none =>
      have gone : root = .none := by
        cases root with
        | none => rfl
        | some node =>
          refine absurd ?_ (leaves_ne_nil node)
          have last := (or_eq_none_iff.mp none).2
          exact head?_eq_none_iff.mp last
      exact ⟨workspace, inForm, Or.inl ⟨gone, rfl, noPane gone⟩, colors⟩
    next pane found =>
      have mem : pane ∈ workspacePaneLeaves root := by
        unfold storedActivePane at found
        rcases or_eq_some_iff.mp found with first | ⟨-, last⟩
        · rcases or_eq_some_iff.mp first with named | ⟨-, shown⟩
          · exact mem_of_find?_eq_some named
          · exact mem_of_find?_eq_some shown
        · exact mem_of_head? last
      have form := inForm pane mem
      generalize chosen : (if pane.sessionIds.contains (cleanString isOther
        (property source "activeId") 256) = true then
          cleanString isOther (property source "activeId") 256 else pane.sessionId) = sessionId
      have shown : sessionId ∈ pane.sessionIds := by
        split at chosen
        next listed =>
          rw [← chosen]
          exact contains_iff_mem.mp listed
        next =>
          obtain ⟨view, there, -, session⟩ := form.active
          rw [form.sessionIds, ← chosen, ← session]
          exact mem_map.mpr ⟨view, there, rfl⟩
      have filled : ¬ sessionId.isEmpty = true := by
        rw [form.sessionIds] at shown
        obtain ⟨view, there, rfl⟩ := mem_map.mp shown
        exact fun empty => form.sessions view there (List.isEmpty_iff.mp empty)
      rw [if_neg filled]
      cases root with
      | none => cases mem
      | some node =>
        obtain ⟨after, left, there, id, session⟩ := activate_inForm workspace inForm mem shown
        exact ⟨(activateWorkspacePaneSession_spec workspace pane.id sessionId).1, after,
          Or.inr ⟨left, there, id, session⟩, colors⟩

end Snapshot

end PortMate
