import PortMate.WorkspaceSanitized

namespace PortMate

open List

section Settled

variable (isOther : JsChar → Bool)

/-- A name that reading it again gives again: it is the first one free of those that its cleaned
text asks for. -/
structure Reclaims (taken : List JsString) (id : JsString) : Prop where
  free : id ∉ taken
  filled : cleanText isOther id 128 ≠ []
  first : ∃ k, numbered (cleanText isOther id 128) k = id ∧
    ∀ j < k, numbered (cleanText isOther id 128) j ∈ taken

/-- The views of a pane, the ids of those before being taken. -/
def SettledViews : List WorkspaceView → SanitizeState → Prop
  | [], _ => True
  | view :: views, state =>
    cleanText isOther view.sessionId 256 = view.sessionId ∧
      cleanText isOther view.title 128 = view.title ∧
      Reclaims isOther (state.viewIds ++ state.ids) view.id ∧
      SettledViews views { state with viewIds := view.id :: state.viewIds }

/-- The ids that a tree takes, in the order in which it is read. -/
def walkNode : WorkspaceNode → SanitizeState → SanitizeState
  | .pane leaf, state =>
    { ids := leaf.id :: state.ids
      viewIds := (leaf.views.map (·.id)).reverse ++ state.viewIds
      paneCount := state.paneCount + 1 }
  | .split id _ _ first second, state =>
    let state := walkNode second (walkNode first state)
    { state with ids := id :: state.ids }

def SettledNode : WorkspaceNode → SanitizeState → Prop
  | .pane leaf, state =>
    Reclaims isOther state.ids leaf.id ∧
      SettledViews isOther leaf.views { state with ids := leaf.id :: state.ids }
  | .split id _ _ first second, state =>
    SettledNode first state ∧ SettledNode second (walkNode first state) ∧
      Reclaims isOther (walkNode second (walkNode first state)).ids id

/-- The stored id of the active view finds it, or nothing, and the view is the first of its session;
the pane that is active turns to the active session anyway. -/
def SettledActiveView (snapshot : WorkspaceSnapshot) (pane : WorkspacePane) : Prop :=
  cleanText isOther pane.activeViewId 128 = pane.activeViewId ∨
    (pane.views.find? fun view => view.sessionId = pane.sessionId).map (·.id) =
        some pane.activeViewId ∧
      ∀ view ∈ pane.views, view.id = cleanText isOther pane.activeViewId 128 →
        pane.id = snapshot.activePaneId ∧ view.sessionId ≠ pane.sessionId

/-- The stored id of the active pane finds it, or nothing, and the pane is the first that shows the
active session. -/
def SettledActivePane (snapshot : WorkspaceSnapshot) (panes : List WorkspacePane) : Prop :=
  cleanText isOther snapshot.activePaneId 128 = snapshot.activePaneId ∨
    (panes.find? fun pane => pane.views.any fun view => view.sessionId = snapshot.activeId).map
        (·.id) = some snapshot.activePaneId ∧
      ∀ pane ∈ panes, pane.id ≠ cleanText isOther snapshot.activePaneId 128

/-- A workspace that comes out of reading it again as it is. -/
structure SettledSnapshot (snapshot : WorkspaceSnapshot) (root : WorkspaceNode) : Prop where
  nodes : SettledNode isOther root ⟨[], [], 0⟩
  activePane : SettledActivePane isOther snapshot root.leaves
  activeViews : ∀ pane ∈ root.leaves, SettledActiveView isOther snapshot pane

end Settled

section Reading

theorem keyMode_read (view : WorkspaceView) :
    normalizeTerminalKeyMode (property view.fields "keyMode") = view.keyMode := by
  change normalizeTerminalKeyMode (some (.string (jsString view.keyMode.name))) = view.keyMode
  cases view.keyMode <;> rfl

theorem direction_read (id : JsString) (direction : WorkspaceSplitDirection) (ratio : ℚ)
    (first second : JsValue) :
    (if isVertical (property (splitFields id direction ratio first second) "direction") then
      WorkspaceSplitDirection.vertical else .horizontal) = direction := by
  cases direction <;> rfl

theorem normalizeSplitRatio_of_bounds {ratio : ℚ}
    (bounds : minWorkspaceSplitRatio ≤ ratio ∧ ratio ≤ maxWorkspaceSplitRatio) :
    normalizeSplitRatio (some ratio) = ratio := by
  unfold normalizeSplitRatio
  rw [Option.getD_some, max_eq_right bounds.1, min_eq_right bounds.2]

variable {isOther : JsChar → Bool}

theorem mem_rdropWhile_cons {c : JsChar} (kept : c.isSpace = false) (rest : JsString) :
    c ∈ (c :: rest).rdropWhile JsChar.isSpace := by
  induction rest using List.reverseRecOn with
  | nil =>
    rw [← nil_append [c], rdropWhile_concat_neg _ _ _ (by simp [kept])]
    simp
  | append_singleton rest last ih =>
    rw [← cons_append]
    by_cases space : last.isSpace = true
    · rw [rdropWhile_concat_pos _ _ _ space]
      exact ih
    · rw [rdropWhile_concat_neg _ _ _ space]
      simp

theorem cleanText_ne_nil {c : JsChar} (space : c.isSpace = false) (shown : isOther c = false)
    (rest : JsString) {maxLength : Nat} (some : 0 < maxLength) :
    cleanText isOther (c :: rest) maxLength ≠ [] := by
  unfold cleanText trimString
  rw [dropWhile_cons_of_neg (by simp [space])]
  intro empty
  have kept : c ∈ ((c :: rest).rdropWhile JsChar.isSpace).filter fun c => !isOther c :=
    mem_filter.mpr ⟨mem_rdropWhile_cons space rest, by simp [shown]⟩
  rcases take_eq_nil_iff.mp empty with zero | none
  · omega
  · rw [none] at kept
    cases kept

theorem numbered_cons (c : JsChar) (rest : JsString) (k : Nat) :
    ∃ more, numbered (c :: rest) k = c :: more := by
  cases k with
  | zero => exact ⟨rest, rfl⟩
  | succ k => exact ⟨_, rfl⟩

theorem firstFree_reread {c : JsChar} (space : c.isSpace = false) (shown : isOther c = false)
    {rest : JsString} {taken : List JsString} {id : JsString} :
    firstFree (numbered (orDefault (cleanText isOther id 128) (c :: rest))) taken taken.length 0 =
      id ↔ Reclaims isOther taken id := by
  rw [firstFree_eq_iff (numbered_injective _)]
  unfold orDefault
  split
  next empty =>
    constructor
    · rintro ⟨-, k, named, -⟩
      obtain ⟨more, starts⟩ := numbered_cons c rest k
      rw [← named, starts] at empty
      exact absurd (List.isEmpty_iff.mp empty) (cleanText_ne_nil space shown more (by decide))
    · exact fun reclaims => absurd (List.isEmpty_iff.mp empty) reclaims.filled
  next filled =>
    constructor
    · rintro ⟨free, first⟩
      exact ⟨free, fun empty => filled (List.isEmpty_iff.mpr empty), first⟩
    · exact fun reclaims => ⟨reclaims.free, reclaims.first⟩

end Reading

section Views

variable {isOther : JsChar → Bool}

/-- The letters that the made ids start with are visible. -/
def VisibleLetters (isOther : JsChar → Bool) : Prop :=
  isOther (.char 'p') = false ∧ isOther (.char 's') = false ∧ isOther (.char 'v') = false

theorem uniqueViewId_reread (visible : VisibleLetters isOther) {view : WorkspaceView}
    {paneId : JsString} {index : Nat} {state : SanitizeState} :
    (uniqueViewId (orDefault (cleanText isOther view.id 128) (defaultViewId paneId index)) state).1 =
      view.id ↔ Reclaims isOther (state.viewIds ++ state.ids) view.id :=
  firstFree_reread (by decide) visible.2.2

variable {state : SanitizeState}

theorem uniqueViewId_reread_snd (visible : VisibleLetters isOther) {view : WorkspaceView}
    (paneId : JsString) (index : Nat)
    (reclaims : Reclaims isOther (state.viewIds ++ state.ids) view.id) :
    uniqueViewId (orDefault (cleanText isOther view.id 128) (defaultViewId paneId index)) state =
      (view.id, { state with viewIds := view.id :: state.viewIds }) := by
  have named := (@uniqueViewId_reread _ visible _ paneId index state).mpr reclaims
  have taken : ∀ requested, uniqueViewId requested state = ((uniqueViewId requested state).1,
      { state with viewIds := (uniqueViewId requested state).1 :: state.viewIds }) :=
    fun _ => rfl
  rw [taken, named]

theorem sanitizeView_read (view : WorkspaceView) (paneId : JsString) (index : Nat)
    (state : SanitizeState) :
    sanitizeView isOther (.object view.fields) paneId index state =
      if (cleanText isOther view.sessionId 256).isEmpty then none
      else
        some (⟨(uniqueViewId (orDefault (cleanText isOther view.id 128) (defaultViewId paneId index))
            state).1, cleanText isOther view.sessionId 256, cleanText isOther view.title 128,
            sanitizeColorText view.color, view.keyMode⟩,
          (uniqueViewId (orDefault (cleanText isOther view.id 128) (defaultViewId paneId index))
            state).2) := by
  rw [← keyMode_read view]
  rfl

theorem sanitizeViewsFrom_length (paneId : JsString) (items : List JsValue) (index room : Nat)
    (state : SanitizeState) :
    (sanitizeViewsFrom isOther paneId items index room state).1.length ≤ items.length := by
  induction items generalizing index room state with
  | nil => exact Nat.le_refl 0
  | cons item items ih =>
    cases room with
    | zero => exact Nat.zero_le _
    | succ room =>
      unfold sanitizeViewsFrom
      split
      next => exact Nat.le_succ_of_le (ih (index + 1) (room + 1) state)
      next view after _ => exact Nat.succ_le_succ (ih (index + 1) room after)

def storedViews (views : List WorkspaceView) : List JsValue :=
  views.map fun view => .object view.fields

variable {views : List WorkspaceView}

theorem sanitizeViewsFrom_reread (visible : VisibleLetters isOther) (paneId : JsString)
    (filled : ∀ view ∈ views, view.sessionId ≠ [])
    (colors : ∀ view ∈ views, sanitizeColorText view.color = view.color) (index : Nat) {room : Nat}
    (few : views.length ≤ room) (settled : SettledViews isOther views state) :
    sanitizeViewsFrom isOther paneId (storedViews views) index room state =
      (views, { state with viewIds := (views.map (·.id)).reverse ++ state.viewIds }) := by
  induction views generalizing index room state with
  | nil => rfl
  | cons view views ih =>
    obtain ⟨session, title, id, rest⟩ := settled
    cases room with
    | zero => cases few
    | succ room =>
      have named := uniqueViewId_reread_snd visible paneId index id
      have shown : ¬ (cleanText isOther view.sessionId 256).isEmpty = true := by
        rw [session]
        exact fun empty => filled view (.head _) (List.isEmpty_iff.mp empty)
      have later := ih (fun other mem => filled other (.tail _ mem))
        (fun other mem => colors other (.tail _ mem)) (index + 1) (Nat.le_of_succ_le_succ few) rest
      change sanitizeViewsFrom isOther paneId (.object view.fields :: storedViews views) index
        (room + 1) state = _
      unfold sanitizeViewsFrom
      rw [sanitizeView_read, if_neg shown, named, session, title, colors view (.head _)]
      dsimp only
      rw [later, map_cons, reverse_cons, append_assoc]
      rfl

theorem settledViews_of_reread (visible : VisibleLetters isOther) (paneId : JsString) (index : Nat)
    {room : Nat}
    (reread : (sanitizeViewsFrom isOther paneId (storedViews views) index room state).1 = views) :
    SettledViews isOther views state := by
  induction views generalizing index room state with
  | nil => trivial
  | cons view views ih =>
    change (sanitizeViewsFrom isOther paneId (.object view.fields :: storedViews views) index
      room state).1 = view :: views at reread
    cases room with
    | zero => cases reread
    | succ room =>
      unfold sanitizeViewsFrom at reread
      rw [sanitizeView_read] at reread
      by_cases gone : (cleanText isOther view.sessionId 256).isEmpty = true
      · rw [if_pos gone] at reread
        have short := @sanitizeViewsFrom_length isOther paneId (storedViews views)
          (index + 1) (room + 1) state
        have long := congrArg List.length reread
        rw [storedViews, length_map] at short
        rw [length_cons] at long
        dsimp only at long
        rw [storedViews] at long
        omega
      · rw [if_neg gone] at reread
        dsimp only at reread
        obtain ⟨same, rest⟩ := List.cons.inj reread
        have id := congrArg WorkspaceView.id same
        dsimp only at id
        have reclaims := (uniqueViewId_reread visible).mp id
        rw [uniqueViewId_reread_snd visible paneId index reclaims] at rest
        exact ⟨congrArg WorkspaceView.sessionId same, congrArg WorkspaceView.title same, reclaims,
          ih (index + 1) rest⟩

theorem sanitizeViewsFrom_empty (paneId : JsString) (index : Nat) {room : Nat}
    (none : (sanitizeViewsFrom isOther paneId (storedViews views) index (room + 1) state).1 = []) :
    ∀ view ∈ views, cleanText isOther view.sessionId 256 = [] := by
  induction views generalizing index with
  | nil => exact nofun
  | cons view views ih =>
    change (sanitizeViewsFrom isOther paneId (.object view.fields :: storedViews views) index
      (room + 1) state).1 = [] at none
    unfold sanitizeViewsFrom at none
    rw [sanitizeView_read] at none
    by_cases gone : (cleanText isOther view.sessionId 256).isEmpty = true
    · rw [if_pos gone] at none
      exact forall_mem_cons.mpr ⟨List.isEmpty_iff.mp gone, ih (index + 1) none⟩
    · rw [if_neg gone] at none
      cases none

end Views

section Panes

def WorkspacePane.turnedTo (pane : WorkspacePane) (view : WorkspaceView) : WorkspacePane :=
  { pane with activeViewId := view.id, sessionId := view.sessionId }

/-- The pane with the view that is active once it was read again. -/
def rereadPane (isOther : JsChar → Bool) (pane : WorkspacePane) : WorkspacePane :=
  match storedActiveView isOther pane.fields pane.views with
  | none => pane
  | some view => pane.turnedTo view

variable {pane : WorkspacePane}

theorem createWorkspacePaneFromViews_turned (inForm : PaneInForm pane)
    (nodup : (pane.views.map (·.id)).Nodup) {view : WorkspaceView} (mem : view ∈ pane.views) :
    createWorkspacePaneFromViews pane.id pane.views view.id = some (pane.turnedTo view) := by
  have head : pane.views.head? = some (pane.views.head (ne_nil_of_mem mem)) :=
    head?_eq_some_head _
  unfold createWorkspacePaneFromViews WorkspacePane.turnedTo
  dsimp only
  rw [take_of_length_le inForm.invariant.viewCount, normalizeView_inForm inForm, head,
    find_of_mem nodup mem, inForm.sessionIds]
  rfl

variable {isOther : JsChar → Bool}

theorem storedActiveView_mem {source : List (JsString × JsValue)} {views : List WorkspaceView}
    {view : WorkspaceView} (found : storedActiveView isOther source views = some view) :
    view ∈ views := by
  unfold storedActiveView at found
  rcases Option.or_eq_some_iff.mp found with first | ⟨-, last⟩
  · rcases Option.or_eq_some_iff.mp first with named | ⟨-, shown⟩
    · exact mem_of_find?_eq_some named
    · exact mem_of_find?_eq_some shown
  · exact mem_of_head? last

theorem storedActiveView_some {source : List (JsString × JsValue)} {views : List WorkspaceView}
    (some : views ≠ []) : ∃ view, storedActiveView isOther source views = .some view := by
  unfold storedActiveView
  rw [head?_eq_some_head some]
  cases (views.find? fun view => view.id = cleanString isOther (property source "activeViewId") 128).or
    (views.find? fun view => view.sessionId = cleanString isOther (property source "sessionId") 256)
    with
  | none => exact ⟨_, rfl⟩
  | some view => exact ⟨view, rfl⟩

variable {state : SanitizeState}

theorem uniqueNodeId_reread {c : JsChar} (space : c.isSpace = false) (shown : isOther c = false)
    (rest : JsString) {id : JsString} :
    (uniqueNodeId (orDefault (cleanText isOther id 128) (c :: rest)) state).1 = id ↔
      Reclaims isOther state.ids id :=
  firstFree_reread space shown

theorem uniqueNodeId_reread_snd {c : JsChar} (space : c.isSpace = false) (shown : isOther c = false)
    (rest : JsString) {id : JsString} (reclaims : Reclaims isOther state.ids id) :
    uniqueNodeId (orDefault (cleanText isOther id 128) (c :: rest)) state =
      (id, { state with ids := id :: state.ids }) := by
  have named := (uniqueNodeId_reread space shown rest).mpr reclaims
  have taken : ∀ requested, uniqueNodeId requested state = ((uniqueNodeId requested state).1,
      { state with ids := (uniqueNodeId requested state).1 :: state.ids }) :=
    fun _ => rfl
  rw [taken, named]

theorem sanitizePaneViews_read (pane : WorkspacePane) (paneId : JsString) (state : SanitizeState) :
    sanitizePaneViews isOther pane.fields paneId state =
      if (sanitizeViewsFrom isOther paneId (storedViews pane.views) 0 32 state).1.isEmpty then
        defaultViews paneId ((requestedLegacyIds isOther pane.fields).take 32) 0
          (sanitizeViewsFrom isOther paneId (storedViews pane.views) 0 32 state).2
      else sanitizeViewsFrom isOther paneId (storedViews pane.views) 0 32 state :=
  rfl

theorem sanitizeWorkspacePane_read (pane : WorkspacePane) (path : JsString)
    (state : SanitizeState) :
    sanitizeWorkspacePane isOther pane.fields path state =
      let (paneId, state) := uniqueNodeId
        (orDefault (cleanText isOther pane.id 128) (jsString "pane-" ++ path)) state
      let (views, state) := sanitizePaneViews isOther pane.fields paneId state
      if maxWorkspacePanes ≤ state.paneCount then (none, state)
      else
        match storedActiveView isOther pane.fields views with
        | none => (none, state)
        | some activeView =>
          (createWorkspacePaneFromViews paneId views activeView.id,
            { state with paneCount := state.paneCount + 1 }) :=
  rfl

theorem sanitizeWorkspacePane_reread (visible : VisibleLetters isOther) (inForm : PaneInForm pane)
    (nodup : (pane.views.map (·.id)).Nodup) (path : JsString)
    (room : state.paneCount < maxWorkspacePanes) (settled : SettledNode isOther (.pane pane) state) :
    sanitizeWorkspacePane isOther pane.fields path state =
      (some (rereadPane isOther pane), walkNode (.pane pane) state) := by
  obtain ⟨id, views⟩ := settled
  obtain ⟨shown, mem, -⟩ := inForm.active
  have some := ne_nil_of_mem mem
  have read := sanitizeViewsFrom_reread visible pane.id inForm.sessions inForm.colors 0
    inForm.invariant.viewCount views
  have filled : ¬ pane.views.isEmpty = true := fun empty => some (List.isEmpty_iff.mp empty)
  have panes : sanitizePaneViews isOther pane.fields pane.id
      { state with ids := pane.id :: state.ids } =
        (pane.views, ⟨pane.id :: state.ids, (pane.views.map (·.id)).reverse ++ state.viewIds,
          state.paneCount⟩) := by
    rw [sanitizePaneViews_read]
    change sanitizeViewsFrom isOther pane.id (storedViews pane.views) 0 32 _ = _ at read
    rw [read, if_neg filled]
  obtain ⟨view, active⟩ := @storedActiveView_some isOther pane.fields _ some
  have named := uniqueNodeId_reread_snd (by decide) visible.1 (jsString "ane-" ++ path) id
  change uniqueNodeId (orDefault (cleanText isOther pane.id 128) (jsString "pane-" ++ path)) state =
    _ at named
  rw [sanitizeWorkspacePane_read, named]
  dsimp only
  rw [panes]
  dsimp only
  rw [if_neg (Nat.not_le_of_lt room), active]
  dsimp only
  rw [createWorkspacePaneFromViews_turned inForm nodup (storedActiveView_mem active)]
  unfold rereadPane
  rw [active]
  rfl

theorem requestedLegacyIds_empty (inForm : PaneInForm pane)
    (gone : ∀ view ∈ pane.views, cleanText isOther view.sessionId 256 = []) :
    requestedLegacyIds isOther pane.fields = [] := by
  obtain ⟨view, mem, -, session⟩ := inForm.active
  have active : cleanText isOther pane.sessionId 256 = [] := session ▸ gone view mem
  have none : validStrings isOther (some (.array (pane.sessionIds.map .string))) = [] := by
    unfold validStrings
    refine filter_eq_nil_iff.mpr fun text there => ?_
    rw [map_map, inForm.sessionIds, map_map] at there
    obtain ⟨other, found, rfl⟩ := mem_map.mp there
    have empty := gone other found
    change ¬ (!(cleanText isOther other.sessionId 256).isEmpty) = true
    rw [empty]
    decide
  change (if !(cleanText isOther pane.sessionId 256).isEmpty &&
      !(uniqueStrings (validStrings isOther (some (.array (pane.sessionIds.map .string))))).contains
        (cleanText isOther pane.sessionId 256) then
      cleanText isOther pane.sessionId 256 ::
        uniqueStrings (validStrings isOther (some (.array (pane.sessionIds.map .string))))
    else uniqueStrings (validStrings isOther (some (.array (pane.sessionIds.map .string))))) = []
  rw [none, active]
  rfl

theorem settledPane_of_reread (visible : VisibleLetters isOther) {pane left : WorkspacePane}
    (inForm : PaneInForm pane) (path : JsString)
    (reread : (sanitizeWorkspacePane isOther pane.fields path state).1 = some left)
    (id : left.id = pane.id) (views : left.views = pane.views) :
    SettledNode isOther (.pane pane) state := by
  obtain ⟨named, few⟩ := sanitizePaneViews_named isOther pane.fields
    (uniqueNodeId (orDefault (cleanText isOther pane.id 128) (jsString "pane-" ++ path)) state).1
    (uniqueNodeId (orDefault (cleanText isOther pane.id 128) (jsString "pane-" ++ path)) state).2
  rw [sanitizeWorkspacePane_read] at reread
  dsimp only at reread
  split at reread
  · cases reread
  · split at reread
    next => cases reread
    next activeView active =>
      have filled := ne_nil_of_mem (storedActiveView_mem active)
      obtain ⟨made, same, paneId, shown, -⟩ := @createWorkspacePaneFromViews_spec
        (uniqueNodeId (orDefault (cleanText isOther pane.id 128) (jsString "pane-" ++ path)) state).1
        activeView.id _ filled few
      cases Option.some.inj (reread.symm.trans same)
      have reclaims : Reclaims isOther state.ids pane.id :=
        (uniqueNodeId_reread (by decide) visible.1 (jsString "ane-" ++ path)).mp (paneId ▸ id)
      have taken := uniqueNodeId_reread_snd (by decide) visible.1 (jsString "ane-" ++ path) reclaims
      change uniqueNodeId (orDefault (cleanText isOther pane.id 128) (jsString "pane-" ++ path))
        state = _ at taken
      rw [taken] at named shown filled
      refine ⟨reclaims, ?_⟩
      have colors : (sanitizePaneViews isOther pane.fields pane.id
          { state with ids := pane.id :: state.ids }).1 = pane.views := by
        refine Eq.trans ?_ (shown.symm.trans views)
        refine ((map_congr_left fun view mem => ?_).trans (map_id _)).symm
        unfold normalizeView
        rw [named.colors view mem]
        rfl
      rw [sanitizePaneViews_read] at colors filled
      split at colors
      next none =>
        have gone := sanitizeViewsFrom_empty pane.id 0 (List.isEmpty_iff.mp none)
        rw [if_pos none, requestedLegacyIds_empty inForm gone] at filled
        exact absurd rfl filled
      next => exact settledViews_of_reread visible pane.id 0 colors

theorem sanitizeWorkspacePane_none (inForm : PaneInForm pane) (path : JsString)
    (room : state.paneCount < maxWorkspacePanes)
    (none : (sanitizeWorkspacePane isOther pane.fields path state).1 = .none) :
    cleanText isOther pane.sessionId 256 = [] := by
  rw [sanitizeWorkspacePane_read] at none
  obtain ⟨named, few⟩ := sanitizePaneViews_named isOther pane.fields
    (uniqueNodeId (orDefault (cleanText isOther pane.id 128) (jsString "pane-" ++ path)) state).1
    (uniqueNodeId (orDefault (cleanText isOther pane.id 128) (jsString "pane-" ++ path)) state).2
  dsimp only at none
  rw [if_neg (by rw [named.paneCount]; exact Nat.not_le_of_lt room)] at none
  obtain ⟨view, mem, -, session⟩ := inForm.active
  split at none
  next gone =>
    have empty : (sanitizePaneViews isOther pane.fields
        (uniqueNodeId (orDefault (cleanText isOther pane.id 128) (jsString "pane-" ++ path)) state).1
        (uniqueNodeId (orDefault (cleanText isOther pane.id 128) (jsString "pane-" ++ path))
          state).2).1 = [] := by
      by_contra some
      obtain ⟨active, found⟩ := @storedActiveView_some isOther pane.fields _ some
      rw [found] at gone
      cases gone
    rw [sanitizePaneViews_read] at empty
    split at empty
    next stored =>
      rw [← session]
      exact sanitizeViewsFrom_empty _ 0 (List.isEmpty_iff.mp stored) view mem
    next stored => exact absurd (List.isEmpty_iff.mpr empty) stored
  next activeView active =>
    obtain ⟨made, same, -⟩ := @createWorkspacePaneFromViews_spec
      (uniqueNodeId (orDefault (cleanText isOther pane.id 128) (jsString "pane-" ++ path)) state).1
      activeView.id _ (ne_nil_of_mem (storedActiveView_mem active)) few
    rw [same] at none
    cases none

end Panes

section Nodes

def WorkspaceNode.mapPanes (f : WorkspacePane → WorkspacePane) : WorkspaceNode → WorkspaceNode
  | .pane leaf => .pane (f leaf)
  | .split id direction ratio first second =>
    .split id direction ratio (first.mapPanes f) (second.mapPanes f)

theorem leaves_mapPanes (f : WorkspacePane → WorkspacePane) (root : WorkspaceNode) :
    (root.mapPanes f).leaves = root.leaves.map f := by
  induction root with
  | pane leaf => rfl
  | split id direction ratio first second ihFirst ihSecond =>
    unfold WorkspaceNode.mapPanes WorkspaceNode.leaves
    rw [ihFirst, ihSecond, map_append]

theorem mapPanes_mapPanes (f g : WorkspacePane → WorkspacePane) (root : WorkspaceNode) :
    (root.mapPanes f).mapPanes g = root.mapPanes fun pane => g (f pane) := by
  induction root with
  | pane leaf => rfl
  | split id direction ratio first second ihFirst ihSecond =>
    exact congrArg₂ (WorkspaceNode.split id direction ratio) ihFirst ihSecond

variable {root : WorkspaceNode}

theorem mapPanes_congr {f g : WorkspacePane → WorkspacePane}
    (same : ∀ pane ∈ root.leaves, f pane = g pane) : root.mapPanes f = root.mapPanes g := by
  induction root with
  | pane leaf => exact congrArg WorkspaceNode.pane (same leaf (.head _))
  | split id direction ratio first second ihFirst ihSecond =>
    unfold WorkspaceNode.mapPanes
    rw [ihFirst fun pane mem => same pane (mem_append_left _ mem),
      ihSecond fun pane mem => same pane (mem_append_right _ mem)]

theorem mapPanes_id (root : WorkspaceNode) : (root.mapPanes fun pane => pane) = root := by
  induction root with
  | pane leaf => rfl
  | split id direction ratio first second ihFirst ihSecond =>
    unfold WorkspaceNode.mapPanes
    rw [ihFirst, ihSecond]

theorem mapPanes_eq_self_iff {f : WorkspacePane → WorkspacePane} :
    root.mapPanes f = root ↔ ∀ pane ∈ root.leaves, f pane = pane := by
  constructor
  · intro same pane mem
    have leaves := congrArg WorkspaceNode.leaves same
    rw [leaves_mapPanes, ← map_id root.leaves, map_map] at leaves
    exact map_inj_left.mp leaves pane mem
  · exact fun same => (mapPanes_congr same).trans (mapPanes_id root)

theorem editPanes_eq_mapPanes {edit : WorkspacePane → Option WorkspacePane}
    {f : WorkspacePane → WorkspacePane} (made : ∀ pane ∈ root.leaves, edit pane = some (f pane)) :
    root.editPanes edit = some (root.mapPanes f) := by
  induction root with
  | pane leaf =>
    unfold WorkspaceNode.editPanes
    rw [made leaf (.head _)]
    rfl
  | split id direction ratio first second ihFirst ihSecond =>
    unfold WorkspaceNode.editPanes
    rw [ihFirst fun pane mem => made pane (mem_append_left _ mem),
      ihSecond fun pane mem => made pane (mem_append_right _ mem)]
    rfl

def WorkspaceNode.shape (root : WorkspaceNode) : WorkspaceNode :=
  root.mapPanes fun pane => { pane with activeViewId := [], sessionId := [] }

theorem shape_leaves_length (root : WorkspaceNode) : root.shape.leaves.length = root.leaves.length := by
  unfold WorkspaceNode.shape
  rw [leaves_mapPanes, length_map]

theorem leaves_length_pos (root : WorkspaceNode) : 0 < root.leaves.length :=
  length_pos_iff.mpr (leaves_ne_nil root)

variable {isOther : JsChar → Bool}

theorem sanitizeWorkspaceNode_pane (levels : Nat) (pane : WorkspacePane) (path : JsString)
    (state : SanitizeState) :
    sanitizeWorkspaceNode isOther (levels + 1) (some (WorkspaceNode.toJson (.pane pane))) path state =
      ((sanitizeWorkspacePane isOther pane.fields path state).1.map .pane,
        (sanitizeWorkspacePane isOther pane.fields path state).2) :=
  rfl

theorem sanitizeWorkspaceNode_split (levels : Nat) (id : JsString)
    (direction : WorkspaceSplitDirection) {ratio : ℚ}
    (bounds : minWorkspaceSplitRatio ≤ ratio ∧ ratio ≤ maxWorkspaceSplitRatio)
    (first second : WorkspaceNode) (path : JsString) (state : SanitizeState) :
    sanitizeWorkspaceNode isOther (levels + 1)
        (some (WorkspaceNode.toJson (.split id direction ratio first second))) path state =
      let (left, state) := sanitizeWorkspaceNode isOther levels (some first.toJson)
        (path ++ jsString "-first") state
      let (right, state) := sanitizeWorkspaceNode isOther levels (some second.toJson)
        (path ++ jsString "-second") state
      match left, right with
      | none, right => (right, state)
      | some left, none => (some left, state)
      | some left, some right =>
        let (splitId, state) := uniqueNodeId
          (orDefault (cleanText isOther id 128) (jsString "split-" ++ path)) state
        (some (.split splitId direction ratio left right), state) := by
  conv_rhs => rw [← normalizeSplitRatio_of_bounds bounds]
  conv_rhs => rw [← direction_read id direction ratio first.toJson second.toJson]
  rfl

theorem sanitizeWorkspaceNode_leaves (levels : Nat) {root : WorkspaceNode}
    (bounds : ∀ split ∈ root.splits,
      minWorkspaceSplitRatio ≤ split.2 ∧ split.2 ≤ maxWorkspaceSplitRatio)
    (path : JsString) (state : SanitizeState) :
    (workspacePaneLeaves (sanitizeWorkspaceNode isOther levels (some root.toJson) path state).1).length ≤
      root.leaves.length := by
  induction levels generalizing root path state with
  | zero => exact Nat.zero_le _
  | succ levels ih =>
    cases root with
    | pane leaf =>
      rw [sanitizeWorkspaceNode_pane]
      cases (sanitizeWorkspacePane isOther leaf.fields path state).1 with
      | none => exact Nat.zero_le _
      | some made => exact Nat.le_refl 1
    | split id direction ratio first second =>
      have left := @ih first (fun split mem => bounds split (.tail _ (mem_append_left _ mem)))
        (path ++ jsString "-first") state
      have right := @ih second (fun split mem => bounds split (.tail _ (mem_append_right _ mem)))
        (path ++ jsString "-second") (sanitizeWorkspaceNode isOther levels (some first.toJson)
          (path ++ jsString "-first") state).2
      rw [sanitizeWorkspaceNode_split levels id direction (bounds (id, ratio) (.head _))]
      generalize sanitizeWorkspaceNode isOther levels (some first.toJson) (path ++ jsString "-first")
        state = result at left right ⊢
      obtain ⟨one, middle⟩ := result
      dsimp only at left right ⊢
      generalize sanitizeWorkspaceNode isOther levels (some second.toJson)
        (path ++ jsString "-second") middle = result at right ⊢
      obtain ⟨two, after⟩ := result
      dsimp only at right ⊢
      unfold WorkspaceNode.leaves
      rw [length_append]
      cases one with
      | none => exact Nat.le_trans right (Nat.le_add_left _ _)
      | some one =>
        cases two with
        | none => exact Nat.le_trans left (Nat.le_add_right _ _)
        | some two =>
          change (one.leaves ++ two.leaves).length ≤ _
          rw [length_append]
          exact Nat.add_le_add left right

/-- What the bounds of a workspace say about one of its trees, read with so many levels left. -/
structure Readable (levels : Nat) (root : WorkspaceNode) (state : SanitizeState) : Prop where
  height : root.height < levels
  panes : state.paneCount + root.leaves.length ≤ maxWorkspacePanes
  inForm : ∀ pane ∈ root.leaves, PaneInForm pane
  viewIds : (viewIdsOf root.leaves).Nodup
  ratios : ∀ split ∈ root.splits, minWorkspaceSplitRatio ≤ split.2 ∧ split.2 ≤ maxWorkspaceSplitRatio

theorem walkNode_paneCount (root : WorkspaceNode) (state : SanitizeState) :
    (walkNode root state).paneCount = state.paneCount + root.leaves.length := by
  induction root generalizing state with
  | pane leaf => rfl
  | split id direction ratio first second ihFirst ihSecond =>
    unfold walkNode WorkspaceNode.leaves
    dsimp only
    rw [ihSecond, ihFirst, length_append, Nat.add_assoc]

section Readable

variable {levels : Nat} {id : JsString} {direction : WorkspaceSplitDirection} {ratio : ℚ}
  {one two : WorkspaceNode} {state : SanitizeState}

theorem Readable.first (readable : Readable (levels + 1) (.split id direction ratio one two)
    state) : Readable levels one state where
  height := by
    have height : max one.height two.height + 1 < levels + 1 := readable.height
    omega
  panes := by
    have panes : state.paneCount + (one.leaves ++ two.leaves).length ≤ _ := readable.panes
    rw [length_append] at panes
    omega
  inForm := fun pane mem => readable.inForm pane (mem_append_left _ mem)
  viewIds := by
    have viewIds : (viewIdsOf (one.leaves ++ two.leaves)).Nodup := readable.viewIds
    rw [viewIdsOf_append] at viewIds
    exact (nodup_append.mp viewIds).1
  ratios := fun split mem => readable.ratios split (.tail _ (mem_append_left _ mem))

theorem Readable.second (readable : Readable (levels + 1) (.split id direction ratio one two)
    state) : Readable levels two (walkNode one state) where
  height := by
    have height : max one.height two.height + 1 < levels + 1 := readable.height
    omega
  panes := by
    have panes : state.paneCount + (one.leaves ++ two.leaves).length ≤ _ := readable.panes
    rw [length_append] at panes
    rw [walkNode_paneCount]
    omega
  inForm := fun pane mem => readable.inForm pane (mem_append_right _ mem)
  viewIds := by
    have viewIds : (viewIdsOf (one.leaves ++ two.leaves)).Nodup := readable.viewIds
    rw [viewIdsOf_append] at viewIds
    exact (nodup_append.mp viewIds).2.1
  ratios := fun split mem => readable.ratios split (.tail _ (mem_append_right _ mem))

end Readable

theorem sanitizeWorkspaceNode_reread (visible : VisibleLetters isOther) {levels : Nat}
    (path : JsString) {state : SanitizeState} (readable : Readable levels root state)
    (settled : SettledNode isOther root state) :
    sanitizeWorkspaceNode isOther levels (some root.toJson) path state =
      (some (root.mapPanes (rereadPane isOther)), walkNode root state) := by
  induction levels generalizing root path state with
  | zero => exact absurd readable.height (Nat.not_lt_zero _)
  | succ levels ih =>
    cases root with
    | pane leaf =>
      have read := sanitizeWorkspacePane_reread visible (readable.inForm leaf (.head _))
        (viewIdsOf_nodup readable.viewIds (.head _)) path readable.panes settled
      rw [sanitizeWorkspaceNode_pane, read]
      rfl
    | split id direction ratio first second =>
      obtain ⟨left, right, reclaims⟩ := settled
      have named := uniqueNodeId_reread_snd (by decide) visible.2.1 (jsString "plit-" ++ path) reclaims
      change uniqueNodeId (orDefault (cleanText isOther id 128) (jsString "split-" ++ path)) _ = _
        at named
      rw [sanitizeWorkspaceNode_split levels id direction (readable.ratios (id, ratio) (.head _)),
        ih (path ++ jsString "-first") readable.first left]
      dsimp only
      rw [ih (path ++ jsString "-second") readable.second right]
      dsimp only
      rw [named]
      rfl

theorem settledNode_of_reread (visible : VisibleLetters isOther) {levels : Nat}
    {root left : WorkspaceNode} (path : JsString) {state : SanitizeState}
    (readable : Readable levels root state)
    (reread : (sanitizeWorkspaceNode isOther levels (some root.toJson) path state).1 = some left)
    (same : left.shape = root.shape) : SettledNode isOther root state := by
  induction levels generalizing root left path state with
  | zero => cases reread
  | succ levels ih =>
    cases root with
    | pane leaf =>
      rw [sanitizeWorkspaceNode_pane] at reread
      obtain ⟨pane, made, rfl⟩ := Option.map_eq_some_iff.mp reread
      have resting := WorkspaceNode.pane.inj same
      have id := congrArg WorkspacePane.id resting
      have views := congrArg WorkspacePane.views resting
      exact settledPane_of_reread visible (readable.inForm leaf (.head _)) path made id views
    | split id direction ratio first second =>
      have fewer := @sanitizeWorkspaceNode_leaves isOther levels first readable.first.ratios
        (path ++ jsString "-first") state
      have fewerAfter := fun middle => @sanitizeWorkspaceNode_leaves isOther levels second
        readable.second.ratios (path ++ jsString "-second") middle
      have count := congrArg (fun root => root.leaves.length) same
      rw [shape_leaves_length, shape_leaves_length] at count
      change _ = (first.leaves ++ second.leaves).length at count
      rw [length_append] at count
      have somePane := leaves_length_pos first
      have someOther := leaves_length_pos second
      rw [sanitizeWorkspaceNode_split levels id direction (readable.ratios (id, ratio) (.head _))]
        at reread
      dsimp only at reread
      split at reread
      next none =>
        have bound := fewerAfter (sanitizeWorkspaceNode isOther levels (some first.toJson)
          (path ++ jsString "-first") state).2
        rw [reread] at bound
        change left.leaves.length ≤ _ at bound
        omega
      next one given _ =>
        rw [given] at fewer
        cases Option.some.inj reread
        change left.leaves.length ≤ _ at fewer
        omega
      next one two oneGiven twoGiven =>
        cases Option.some.inj reread
        obtain ⟨sameId, -, -, sameFirst, sameSecond⟩ := WorkspaceNode.split.inj same
        have firstSettled := ih _ readable.first oneGiven sameFirst
        have firstRead := sanitizeWorkspaceNode_reread visible (path ++ jsString "-first")
          readable.first firstSettled
        rw [firstRead] at twoGiven sameId
        have secondSettled := ih _ readable.second twoGiven sameSecond
        have secondRead := sanitizeWorkspaceNode_reread visible (path ++ jsString "-second")
          readable.second secondSettled
        dsimp only at sameId
        rw [secondRead] at sameId
        exact ⟨firstSettled, secondSettled,
          (uniqueNodeId_reread (by decide) visible.2.1 (jsString "plit-" ++ path)).mp sameId⟩

end Nodes

end PortMate
