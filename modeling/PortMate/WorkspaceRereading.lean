import PortMate.WorkspaceIdempotence

namespace PortMate

open List Option Or

section Activation

/-- The pane turned to its view of the session, if it has one. -/
def WorkspacePane.activated (sessionId : JsString) (pane : WorkspacePane) : WorkspacePane :=
  if pane.sessionId = sessionId then pane
  else
    match pane.views.find? fun view => view.sessionId = sessionId with
    | none => pane
    | some view => pane.turnedTo view

def activatedAt (paneId sessionId : JsString) (pane : WorkspacePane) : WorkspacePane :=
  if pane.id = paneId then pane.activated sessionId else pane

variable {pane : WorkspacePane}

theorem activated_of_find {sessionId : JsString} {view : WorkspaceView}
    (other : pane.sessionId ≠ sessionId)
    (found : pane.views.find? (fun view => view.sessionId = sessionId) = some view) :
    pane.activated sessionId = pane.turnedTo view := by
  unfold WorkspacePane.activated
  rw [if_neg other, found]

theorem activatePaneSession_eq (inForm : PaneInForm pane) (nodup : (pane.views.map (·.id)).Nodup)
    (sessionId : JsString) :
    activatePaneSession sessionId pane = some (pane.activated sessionId) := by
  unfold activatePaneSession WorkspacePane.activated
  split
  · rfl
  · cases found : pane.views.find? fun view => view.sessionId = sessionId with
    | none => rfl
    | some view =>
      exact createWorkspacePaneFromViews_turned inForm nodup (mem_of_find?_eq_some found)

theorem activateWorkspacePaneSession_eq {root : WorkspaceNode}
    (inForm : ∀ pane ∈ root.leaves, PaneInForm pane) (nodup : (viewIdsOf root.leaves).Nodup)
    (paneId sessionId : JsString) :
    activateWorkspacePaneSession (some root) paneId sessionId =
      some (root.mapPanes (activatedAt paneId sessionId)) := by
  refine editPanes_eq_mapPanes fun pane mem => ?_
  unfold onPane activatedAt
  split
  · exact activatePaneSession_eq (inForm pane mem) (viewIdsOf_nodup nodup mem) sessionId
  · rfl

theorem shape_mapPanes {f : WorkspacePane → WorkspacePane}
    (kept : ∀ pane, (f pane).id = pane.id ∧ (f pane).views = pane.views ∧
      (f pane).sessionIds = pane.sessionIds) (root : WorkspaceNode) :
    (root.mapPanes f).shape = root.shape := by
  unfold WorkspaceNode.shape
  rw [mapPanes_mapPanes]
  refine mapPanes_congr fun pane _ => ?_
  obtain ⟨id, views, sessionIds⟩ := kept pane
  rw [id, views, sessionIds]

theorem activatedAt_kept (paneId sessionId : JsString) (pane : WorkspacePane) :
    (activatedAt paneId sessionId pane).id = pane.id ∧
      (activatedAt paneId sessionId pane).views = pane.views ∧
      (activatedAt paneId sessionId pane).sessionIds = pane.sessionIds := by
  unfold activatedAt WorkspacePane.activated
  split
  · split
    · exact ⟨rfl, rfl, rfl⟩
    · split <;> exact ⟨rfl, rfl, rfl⟩
  · exact ⟨rfl, rfl, rfl⟩

theorem turnedTo_inForm (inForm : PaneInForm pane) {view : WorkspaceView} (mem : view ∈ pane.views) :
    PaneInForm (pane.turnedTo view) where
  invariant := ⟨mem_map.mpr ⟨view, mem, rfl⟩, inForm.invariant.viewCount⟩
  colors := inForm.colors
  sessions := inForm.sessions
  sessionIds := inForm.sessionIds
  active := ⟨view, mem, rfl, rfl⟩

theorem turnedTo_eq_self_iff (inForm : PaneInForm pane) (nodup : (pane.views.map (·.id)).Nodup)
    {view : WorkspaceView} (mem : view ∈ pane.views) :
    pane.turnedTo view = pane ↔ view.id = pane.activeViewId := by
  constructor
  · exact fun same => congrArg WorkspacePane.activeViewId same
  · intro active
    obtain ⟨other, there, id, session⟩ := inForm.active
    have same : view = other := inj_on_of_nodup_map nodup mem there (active.trans id.symm)
    unfold WorkspacePane.turnedTo
    rw [active, same, session]

variable {isOther : JsChar → Bool}

theorem rereadPane_kept (pane : WorkspacePane) :
    (rereadPane isOther pane).id = pane.id ∧ (rereadPane isOther pane).views = pane.views ∧
      (rereadPane isOther pane).sessionIds = pane.sessionIds := by
  unfold rereadPane
  split <;> exact ⟨rfl, rfl, rfl⟩

theorem rereadPane_inForm (inForm : PaneInForm pane) : PaneInForm (rereadPane isOther pane) := by
  unfold rereadPane
  split
  next => exact inForm
  next view found => exact turnedTo_inForm inForm (storedActiveView_mem found)

theorem storedActiveView_read {pane : WorkspacePane}
    (settled : cleanText isOther pane.sessionId 256 = pane.sessionId) :
    storedActiveView isOther pane.fields pane.views =
      ((pane.views.find? fun view => view.id = cleanText isOther pane.activeViewId 128).or
        (pane.views.find? fun view => view.sessionId = pane.sessionId)).or pane.views.head? := by
  conv_rhs => rw [← settled]
  rfl

/-- A pane that was read again, and turned to the active session if it is the active pane, is as it
was just when its active view was settled. -/
theorem activatedAt_reread_iff {snapshot : WorkspaceSnapshot} (inForm : PaneInForm pane)
    (nodup : (pane.views.map (·.id)).Nodup)
    (settled : cleanText isOther pane.sessionId 256 = pane.sessionId)
    (here : pane.id = snapshot.activePaneId → pane.sessionId = snapshot.activeId) :
    activatedAt snapshot.activePaneId snapshot.activeId (rereadPane isOther pane) = pane ↔
      SettledActiveView isOther snapshot pane := by
  obtain ⟨view, mem, id, session⟩ := inForm.active
  obtain ⟨first, found⟩ : ∃ first, pane.views.find? (fun view => view.sessionId = pane.sessionId) =
      some first := isSome_iff_exists.mp (find?_isSome.mpr ⟨view, mem, by simp [session]⟩)
  have firstMem := mem_of_find?_eq_some found
  have firstSession : first.sessionId = pane.sessionId := by simpa using find?_some found
  have read := @storedActiveView_read isOther pane settled
  unfold SettledActiveView
  rw [found, map_some, Option.some.injEq]
  cases named : pane.views.find? fun view => view.id = cleanText isOther pane.activeViewId 128 with
  | none =>
    have absent : ∀ other ∈ pane.views, other.id ≠ cleanText isOther pane.activeViewId 128 := by
      simpa using named
    rw [named, none_or, found, some_or] at read
    have turned : activatedAt snapshot.activePaneId snapshot.activeId (rereadPane isOther pane) =
        pane.turnedTo first := by
      unfold rereadPane activatedAt
      rw [read]
      dsimp only
      split
      next active => exact if_pos (firstSession.trans (here active))
      next => rfl
    rw [turned, turnedTo_eq_self_iff inForm nodup firstMem]
    constructor
    · exact fun same => inr ⟨same, fun other there equal => absurd equal (absent other there)⟩
    · rintro (clean | ⟨same, -⟩)
      · exact absurd (id.trans clean.symm) (absent view mem)
      · exact same
  | some other =>
    have there := mem_of_find?_eq_some named
    have otherId : other.id = cleanText isOther pane.activeViewId 128 := by
      simpa using find?_some named
    rw [named, some_or, some_or] at read
    by_cases moved : pane.id = snapshot.activePaneId ∧ other.sessionId ≠ pane.sessionId
    · have turned : activatedAt snapshot.activePaneId snapshot.activeId (rereadPane isOther pane) =
          pane.turnedTo first := by
        have active := here moved.1
        unfold rereadPane activatedAt
        rw [read]
        refine (if_pos moved.1).trans ?_
        exact activated_of_find (active ▸ moved.2) (active ▸ found)
      rw [turned, turnedTo_eq_self_iff inForm nodup firstMem]
      constructor
      · refine fun same => inr ⟨same, fun again given equal => ?_⟩
        rw [inj_on_of_nodup_map nodup given there (equal.trans otherId.symm)]
        exact moved
      · rintro (clean | ⟨same, -⟩)
        · have equal := inj_on_of_nodup_map nodup there mem (otherId.trans (clean.trans id.symm))
          exact absurd (equal ▸ session) moved.2
        · exact same
    · have turned : activatedAt snapshot.activePaneId snapshot.activeId (rereadPane isOther pane) =
          pane.turnedTo other := by
        unfold rereadPane activatedAt
        rw [read]
        dsimp only
        split
        next active =>
          have same : other.sessionId = pane.sessionId := by
            by_contra different
            exact moved ⟨active, different⟩
          exact if_pos (same.trans (here active))
        next => rfl
      rw [turned, turnedTo_eq_self_iff inForm nodup there, otherId]
      constructor
      · exact inl
      · rintro (clean | ⟨-, elsewhere⟩)
        · exact clean
        · exact absurd (elsewhere other there otherId) moved

end Activation

section Snapshot

variable {isOther : JsChar → Bool}

variable {snapshot : WorkspaceSnapshot}

theorem storedActivePane_read {panes : List WorkspacePane}
    (settled : cleanText isOther snapshot.activeId 256 = snapshot.activeId) :
    storedActivePane isOther snapshot.fields panes =
      ((panes.find? fun pane => pane.id = cleanText isOther snapshot.activePaneId 128).or
        (panes.find? fun pane => pane.views.any fun view =>
          view.sessionId = snapshot.activeId)).or panes.head? := by
  conv_rhs => rw [← settled]
  rfl

theorem storedActivePane_iff {panes : List WorkspacePane}
    (settled : cleanText isOther snapshot.activeId 256 = snapshot.activeId) {active : WorkspacePane}
    (mem : active ∈ panes) (id : active.id = snapshot.activePaneId)
    (shown : ∃ view ∈ active.views, view.sessionId = snapshot.activeId) :
    (storedActivePane isOther snapshot.fields panes).map (·.id) = some snapshot.activePaneId ↔
      SettledActivePane isOther snapshot panes := by
  obtain ⟨view, there, session⟩ := shown
  obtain ⟨first, found⟩ : ∃ first, panes.find? (fun pane => pane.views.any fun view =>
      view.sessionId = snapshot.activeId) = some first :=
    isSome_iff_exists.mp (find?_isSome.mpr
      ⟨active, mem, any_eq_true.mpr ⟨view, there, decide_eq_true session⟩⟩)
  unfold SettledActivePane
  rw [storedActivePane_read settled, found]
  cases named : panes.find? fun pane => pane.id = cleanText isOther snapshot.activePaneId 128 with
  | none =>
    have absent : ∀ pane ∈ panes, pane.id ≠ cleanText isOther snapshot.activePaneId 128 := by
      simpa using named
    constructor
    · exact fun same => inr ⟨same, absent⟩
    · rintro (clean | ⟨same, -⟩)
      · exact absurd (id.trans clean.symm) (absent active mem)
      · exact same
  | some pane =>
    have paneId : pane.id = cleanText isOther snapshot.activePaneId 128 := by
      simpa using find?_some named
    rw [some_or, some_or, map_some, Option.some.injEq, paneId]
    constructor
    · exact inl
    · rintro (clean | ⟨-, absent⟩)
      · exact clean
      · exact absurd paneId (absent pane (mem_of_find?_eq_some named))

theorem sanitizeTabColors_reread {tabColors : List (JsString × JsString)}
    (valid : ∀ entry ∈ tabColors, entry.1 ≠ [] ∧ isViewColor entry.2 = true) :
    sanitizeTabColors (some (.object (tabColors.map fun entry => (entry.1, .string entry.2)))) =
      tabColors := by
  unfold sanitizeTabColors
  dsimp only
  induction tabColors with
  | nil => rfl
  | cons entry tabColors ih =>
    obtain ⟨filled, color⟩ := valid entry (.head _)
    have kept : (!entry.1.isEmpty && isViewColor entry.2) = true := by
      rw [color, Bool.and_true, isEmpty_eq_false_iff.mpr filled]
      rfl
    rw [map_cons, filterMap_cons_some (by dsimp only; rw [if_pos kept]),
      ih fun other mem => valid other (.tail _ mem)]

theorem sanitizeWorkspaceSnapshot_read (snapshot : WorkspaceSnapshot) :
    sanitizeWorkspaceSnapshot isOther snapshot.toJson =
      let tabColors := sanitizeTabColors
        (some (.object (snapshot.tabColors.map fun entry => (entry.1, .string entry.2))))
      let requestedActiveId := cleanText isOther snapshot.activeId 256
      let root := withSinglePane isOther snapshot.fields
      match storedActivePane isOther snapshot.fields (workspacePaneLeaves root) with
      | none => ⟨root, [], requestedActiveId, tabColors⟩
      | some pane =>
        let activeSessionId :=
          if pane.sessionIds.contains requestedActiveId then requestedActiveId else pane.sessionId
        ⟨if activeSessionId.isEmpty then root
          else activateWorkspacePaneSession root pane.id activeSessionId,
          pane.id, activeSessionId, tabColors⟩ :=
  rfl

theorem storedRoot_read (snapshot : WorkspaceSnapshot) :
    storedRoot isOther snapshot.fields =
      sanitizeWorkspaceNode isOther (maxWorkspaceDepth + 1)
        (some ((snapshot.root.map (·.toJson)).getD .null)) (jsString "root") ⟨[], [], 0⟩ := by
  unfold storedRoot
  rw [if_pos]
  · rfl
  · rfl

variable {root : WorkspaceNode}

theorem withSinglePane_read (stored : snapshot.root = some root) :
    withSinglePane isOther snapshot.fields =
      (sanitizeWorkspaceNode isOther (maxWorkspaceDepth + 1) (some root.toJson) (jsString "root")
        ⟨[], [], 0⟩).1.or
        (if (cleanText isOther snapshot.activeId 256).isEmpty then none
        else
          (createSanitizedPane (cleanText isOther snapshot.activeId 256) (jsString "pane-active")
            (sanitizeWorkspaceNode isOther (maxWorkspaceDepth + 1) (some root.toJson)
              (jsString "root") ⟨[], [], 0⟩).2).1.map .pane) := by
  unfold withSinglePane
  rw [storedRoot_read, stored]
  rfl

theorem sanitizeWorkspaceSnapshot_root (snapshot : WorkspaceSnapshot) :
    (sanitizeWorkspaceSnapshot isOther snapshot.toJson).root =
        withSinglePane isOther snapshot.fields ∨
      ∃ paneId sessionId, (sanitizeWorkspaceSnapshot isOther snapshot.toJson).root =
        activateWorkspacePaneSession (withSinglePane isOther snapshot.fields) paneId sessionId := by
  rw [sanitizeWorkspaceSnapshot_read]
  dsimp only
  split
  next => exact inl rfl
  next pane _ =>
    dsimp only
    generalize (if pane.sessionIds.contains (cleanText isOther snapshot.activeId 256) = true then
      cleanText isOther snapshot.activeId 256 else pane.sessionId) = sessionId
    split
    · exact inl rfl
    · exact inr ⟨pane.id, sessionId, rfl⟩

theorem settledViews_sessions {views : List WorkspaceView} {state : SanitizeState}
    (settled : SettledViews isOther views state) :
    ∀ view ∈ views, cleanText isOther view.sessionId 256 = view.sessionId := by
  induction views generalizing state with
  | nil => exact nofun
  | cons view views ih =>
    obtain ⟨session, -, -, rest⟩ := settled
    exact forall_mem_cons.mpr ⟨session, ih rest⟩

theorem settledNode_sessions {state : SanitizeState} (settled : SettledNode isOther root state) :
    ∀ pane ∈ root.leaves, ∀ view ∈ pane.views, cleanText isOther view.sessionId 256 = view.sessionId := by
  induction root generalizing state with
  | pane leaf =>
    intro pane mem
    rw [mem_singleton.mp mem]
    exact settledViews_sessions settled.2
  | split id direction ratio first second ihFirst ihSecond =>
    obtain ⟨left, right, -⟩ := settled
    intro pane mem
    exact (mem_append.mp mem).elim (ihFirst left pane) (ihSecond right pane)

theorem SnapshotInForm.readable (inForm : SnapshotInForm snapshot)
    (stored : snapshot.root = some root) : Readable (maxWorkspaceDepth + 1) root ⟨[], [], 0⟩ := by
  have workspace := inForm.workspace
  have panes := inForm.panes
  rw [stored] at workspace panes
  refine ⟨Nat.lt_succ_of_le workspace.depth, ?_, panes, workspace.panes.viewIds, workspace.ratios⟩
  rw [Nat.zero_add]
  exact workspace.panes.count

theorem find_map_kept {f : WorkspacePane → WorkspacePane} {p : WorkspacePane → Bool}
    (kept : ∀ pane, p (f pane) = p pane) (panes : List WorkspacePane) :
    (panes.map f).find? p = (panes.find? p).map f := by
  rw [find?_map]
  congr 2
  exact funext kept

theorem storedActivePane_map {f : WorkspacePane → WorkspacePane}
    (kept : ∀ pane, (f pane).id = pane.id ∧ (f pane).views = pane.views ∧
      (f pane).sessionIds = pane.sessionIds)
    (source : List (JsString × JsValue)) (panes : List WorkspacePane) :
    storedActivePane isOther source (panes.map f) = (storedActivePane isOther source panes).map f := by
  unfold storedActivePane
  rw [find_map_kept fun pane => by rw [(kept pane).1],
    find_map_kept fun pane => by rw [(kept pane).2.1], head?_map, map_or, map_or]

theorem storedActivePane_some {source : List (JsString × JsValue)} {panes : List WorkspacePane}
    (some : panes ≠ []) : ∃ pane ∈ panes, storedActivePane isOther source panes = .some pane := by
  unfold storedActivePane
  rw [head?_eq_some_head some]
  cases found : (panes.find? fun pane =>
      pane.id = cleanString isOther (property source "activePaneId") 128).or
    (panes.find? fun pane => pane.views.any fun view =>
      view.sessionId = cleanString isOther (property source "activeId") 256) with
  | none => exact ⟨_, head_mem some, rfl⟩
  | some pane =>
    refine ⟨pane, ?_, rfl⟩
    rcases or_eq_some_iff.mp found with named | ⟨-, shown⟩
    · exact mem_of_find?_eq_some named
    · exact mem_of_find?_eq_some shown

theorem SnapshotInForm.activePane (inForm : SnapshotInForm snapshot)
    (stored : snapshot.root = some root) :
    ∃ pane ∈ root.leaves, pane.id = snapshot.activePaneId ∧ pane.sessionId = snapshot.activeId ∧
      (∀ other ∈ root.leaves, other.id = snapshot.activePaneId → other = pane) := by
  have ids := inForm.workspace.panes.ids
  rcases inForm.active with ⟨none, -⟩ | ⟨pane, mem, id, session⟩
  · rw [stored] at none
    cases none
  · rw [stored] at mem ids
    exact ⟨pane, mem, id, session, fun other there same =>
      inj_on_of_nodup_map ids there mem (same.trans id.symm)⟩

theorem sanitizeWorkspaceSnapshot_settled_iff (visible : VisibleLetters isOther)
    (inForm : SnapshotInForm snapshot) (stored : snapshot.root = some root)
    (settled : SettledNode isOther root ⟨[], [], 0⟩) :
    sanitizeWorkspaceSnapshot isOther snapshot.toJson = snapshot ↔
      (storedActivePane isOther snapshot.fields root.leaves).map (·.id) =
          some snapshot.activePaneId ∧
        ∀ pane ∈ root.leaves, activatedAt snapshot.activePaneId snapshot.activeId
          (rereadPane isOther pane) = pane := by
  obtain ⟨active, mem, id, session, only⟩ := inForm.activePane stored
  have forms := inForm.panes
  have nodup := inForm.workspace.panes.viewIds
  rw [stored] at forms nodup
  have single : withSinglePane isOther snapshot.fields =
      some (root.mapPanes (rereadPane isOther)) := by
    rw [withSinglePane_read stored,
      sanitizeWorkspaceNode_reread visible (jsString "root") (inForm.readable stored) settled]
    rfl
  obtain ⟨view, there, -, viewSession⟩ := (forms active mem).active
  have activeId : cleanText isOther snapshot.activeId 256 = snapshot.activeId := by
    rw [← session, ← viewSession]
    exact settledNode_sessions settled active mem view there
  have filled : ¬ snapshot.activeId.isEmpty = true := by
    rw [← session, ← viewSession]
    exact fun empty => (forms active mem).sessions view there (List.isEmpty_iff.mp empty)
  have listed : (rereadPane isOther active).sessionIds.contains snapshot.activeId = true := by
    rw [(rereadPane_kept active).2.2, (forms active mem).sessionIds, contains_iff_mem]
    exact mem_map.mpr ⟨view, there, viewSession.trans session⟩
  have activation : ∀ paneId sessionId, activateWorkspacePaneSession
      (some (root.mapPanes (rereadPane isOther))) paneId sessionId =
        some (root.mapPanes fun pane => activatedAt paneId sessionId (rereadPane isOther pane)) := by
    intro paneId sessionId
    rw [activateWorkspacePaneSession_eq, mapPanes_mapPanes]
    · rw [leaves_mapPanes]
      exact forall_mem_map.mpr fun pane mem => rereadPane_inForm (forms pane mem)
    · have same : viewIdsOf (root.leaves.map (rereadPane isOther)) = viewIdsOf root.leaves := by
        unfold viewIdsOf
        rw [flatMap_map]
        exact flatMap_congr fun pane _ => by rw [(rereadPane_kept pane).2.1]
      rw [leaves_mapPanes, same]
      exact nodup
  obtain ⟨pane, among, found⟩ := @storedActivePane_some isOther snapshot.fields _
    (leaves_ne_nil root)
  have leaves : workspacePaneLeaves (some (root.mapPanes (rereadPane isOther))) =
      root.leaves.map (rereadPane isOther) := leaves_mapPanes _ root
  rw [sanitizeWorkspaceSnapshot_read, single, activeId,
    sanitizeTabColors_reread inForm.tabColors]
  dsimp only
  rw [leaves, storedActivePane_map rereadPane_kept, found]
  dsimp only [map_some]
  rw [(rereadPane_kept pane).1, Option.some.injEq]
  constructor
  · intro same
    have paneId := congrArg WorkspaceSnapshot.activePaneId same
    have sessionId := congrArg WorkspaceSnapshot.activeId same
    have tree := congrArg WorkspaceSnapshot.root same
    dsimp only at paneId sessionId tree
    rw [sessionId, if_neg filled, activation, stored, paneId] at tree
    exact ⟨paneId, mapPanes_eq_self_iff.mp (Option.some.inj tree)⟩
  · rintro ⟨paneId, kept⟩
    cases only pane among paneId
    rw [if_pos listed, if_neg filled, activation, id, mapPanes_eq_self_iff.mpr kept, ← stored]

theorem settledNode_of_fixed (visible : VisibleLetters isOther) (inForm : SnapshotInForm snapshot)
    (stored : snapshot.root = some root)
    (fixed : sanitizeWorkspaceSnapshot isOther snapshot.toJson = snapshot) :
    SettledNode isOther root ⟨[], [], 0⟩ := by
  obtain ⟨active, mem, id, session, only⟩ := inForm.activePane stored
  have forms := inForm.panes
  rw [stored] at forms
  obtain ⟨workspace, made, -⟩ := withSinglePane_spec isOther snapshot.fields
  have tree := @sanitizeWorkspaceSnapshot_root isOther snapshot
  rw [fixed, stored] at tree
  cases single : withSinglePane isOther snapshot.fields with
  | none =>
    rw [single] at tree
    rcases tree with none | ⟨_, _, none⟩ <;> cases none
  | some before =>
    rw [single] at workspace made tree
    have shape : before.shape = root.shape := by
      rcases tree with same | ⟨paneId, sessionId, same⟩
      · exact congrArg WorkspaceNode.shape (Option.some.inj same).symm
      · rw [activateWorkspacePaneSession_eq made workspace.panes.viewIds] at same
        rw [Option.some.inj same]
        exact (shape_mapPanes (activatedAt_kept _ _) before).symm
    rw [withSinglePane_read stored] at single
    cases given : (sanitizeWorkspaceNode isOther (maxWorkspaceDepth + 1) (some root.toJson)
        (jsString "root") ⟨[], [], 0⟩).1 with
    | some left =>
      rw [given] at single
      cases Option.some.inj single
      exact settledNode_of_reread visible (jsString "root") (inForm.readable stored) given shape
    | none =>
      -- The pane for the active session is a single one, and its session was not read.
      rw [given, none_or] at single
      split at single
      next => cases single
      next filled =>
        obtain ⟨pane, -, rfl⟩ := map_eq_some_iff.mp single
        cases root with
        | split => cases shape
        | pane leaf =>
          rw [sanitizeWorkspaceNode_pane] at given
          have gone := sanitizeWorkspacePane_none (forms leaf (.head _)) (jsString "root")
            (by decide) (map_eq_none_iff.mp given)
          cases mem_singleton.mp mem
          rw [session] at gone
          exact absurd (List.isEmpty_iff.mpr gone) filled

theorem sanitized_again_iff (visible : VisibleLetters isOther) :
    (∀ value, SnapshotInForm (sanitizeWorkspaceSnapshot isOther value)) ∧
      ∀ snapshot, SnapshotInForm snapshot →
        (sanitizeWorkspaceSnapshot isOther snapshot.toJson = snapshot ↔
          ∀ root, snapshot.root = some root → SettledSnapshot isOther snapshot root) := by
  refine ⟨sanitizeWorkspaceSnapshot_inForm isOther, fun snapshot inForm => ?_⟩
  cases stored : snapshot.root with
  | none =>
    refine ⟨fun _ => nofun, fun _ => ?_⟩
    obtain ⟨root, activePaneId, activeId, tabColors⟩ := snapshot
    cases stored
    rcases inForm.active with ⟨-, activePane, active⟩ | ⟨_, mem, -⟩
    · cases activePane
      cases active
      have single : withSinglePane isOther (WorkspaceSnapshot.fields ⟨none, [], [], tabColors⟩) =
          none := by
        unfold withSinglePane
        rw [storedRoot_read]
        rfl
      rw [sanitizeWorkspaceSnapshot_read, single, sanitizeTabColors_reread inForm.tabColors]
      rfl
    · cases mem
  | some root =>
    obtain ⟨active, mem, id, session, only⟩ := inForm.activePane stored
    have forms := inForm.panes
    have nodup := inForm.workspace.panes.viewIds
    rw [stored] at forms nodup
    obtain ⟨view, there, -, viewSession⟩ := (forms active mem).active
    have activity : SettledNode isOther root ⟨[], [], 0⟩ →
        (sanitizeWorkspaceSnapshot isOther snapshot.toJson = snapshot ↔
          SettledActivePane isOther snapshot root.leaves ∧
            ∀ pane ∈ root.leaves, SettledActiveView isOther snapshot pane) := by
      intro settled
      have sessions := settledNode_sessions settled
      have activeId : cleanText isOther snapshot.activeId 256 = snapshot.activeId := by
        rw [← session, ← viewSession]
        exact sessions active mem view there
      rw [sanitizeWorkspaceSnapshot_settled_iff visible inForm stored settled,
        storedActivePane_iff activeId mem id ⟨view, there, viewSession.trans session⟩]
      refine and_congr_right fun _ => forall₂_congr fun pane among => ?_
      obtain ⟨shown, found, -, same⟩ := (forms pane among).active
      refine activatedAt_reread_iff (forms pane among) (viewIdsOf_nodup nodup among) ?_ ?_
      · rw [← same]
        exact sessions pane among shown found
      · exact fun here => (congrArg WorkspacePane.sessionId (only pane among here)).trans session
    constructor
    · intro fixed other given
      cases Option.some.inj given
      have nodes := settledNode_of_fixed visible inForm stored fixed
      obtain ⟨pane, views⟩ := (activity nodes).mp fixed
      exact ⟨nodes, pane, views⟩
    · intro settled
      obtain ⟨nodes, pane, views⟩ := settled root rfl
      exact (activity nodes).mpr ⟨pane, views⟩

section Tidy

def isLowControl : JsChar → Bool
  | .char c => c.toNat < 32
  | .surrogate _ => true

def tidyView (title : String) : WorkspaceView :=
  ⟨jsString "v", jsString "shell", jsString title, [], .remoteMode⟩

def tidyPane (title : String) : WorkspacePane :=
  ⟨jsString "p", jsString "v", [tidyView title], jsString "shell", [jsString "shell"]⟩

def tidyWorkspace (title : String) : WorkspaceSnapshot :=
  ⟨some (.pane (tidyPane title)), jsString "p", jsString "shell", []⟩

theorem tidy_workspace_again :
    sanitizeWorkspaceSnapshot isLowControl (tidyWorkspace "logs").toJson = tidyWorkspace "logs" := by
  have inForm : SnapshotInForm (tidyWorkspace "logs") := by
    have made := (@sanitized_again_iff isLowControl ⟨rfl, rfl, rfl⟩).1 (tidyWorkspace "logs\x07").toJson
    have read : sanitizeWorkspaceSnapshot isLowControl (tidyWorkspace "logs\x07").toJson =
        tidyWorkspace "logs" := by decide
    rwa [read] at made
  refine ((@sanitized_again_iff isLowControl ⟨rfl, rfl, rfl⟩).2 _ inForm).mpr fun root stored => ?_
  cases Option.some.inj stored
  refine ⟨⟨⟨nofun, by decide, 0, by decide, nofun⟩, by decide, by decide, ⟨nofun, by decide, 0,
    by decide, nofun⟩, trivial⟩, inl (by decide), forall_mem_cons.mpr ⟨inl (by decide), nofun⟩⟩

/-- A blank behind a control character is left by the first cleaning, and goes with the second. -/
theorem blank_bared_by_cleaning :
    ¬ ∀ value, sanitizeWorkspaceSnapshot isLowControl
        (sanitizeWorkspaceSnapshot isLowControl value).toJson =
      sanitizeWorkspaceSnapshot isLowControl value := by
  intro idempotent
  have again := idempotent (tidyWorkspace "\x07 logs").toJson
  revert again
  decide

end Tidy

end Snapshot

end PortMate
