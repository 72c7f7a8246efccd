import PortMate.Workspace

namespace PortMate

open JsValue TerminalKeyMode

structure WorkspaceSnapshot where
  root : Option WorkspaceNode
  activePaneId : JsString
  activeId : JsString
  tabColors : List (JsString × JsString)
  deriving DecidableEq

def emptyWorkspaceSnapshot : WorkspaceSnapshot := ⟨none, [], [], []⟩

structure SanitizeState where
  ids : List JsString
  viewIds : List JsString
  paneCount : Nat
  deriving DecidableEq

/-- `text || fallback`. -/
def orDefault (text fallback : JsString) : JsString := if text.isEmpty then fallback else text

def uniqueNodeId (requested : JsString) (state : SanitizeState) : JsString × SanitizeState :=
  let id := firstFree (numbered requested) state.ids state.ids.length 0
  (id, { state with ids := id :: state.ids })

def uniqueViewId (requested : JsString) (state : SanitizeState) : JsString × SanitizeState :=
  let taken := state.viewIds ++ state.ids
  let id := firstFree (numbered requested) taken taken.length 0
  (id, { state with viewIds := id :: state.viewIds })

/-- The id of the view at an index that has none of its own. -/
def defaultViewId (paneId : JsString) (index : Nat) : JsString :=
  jsString "view-" ++ paneId ++ jsString "-" ++ decimal (index + 1)

def normalizeTerminalKeyMode (value : Option JsValue) : TerminalKeyMode :=
  if isString value localMode.name then .localMode
  else if isString value normalMode.name then .normalMode
  else if isString value commandMode.name then .commandMode
  else .remoteMode

def defaultViews (paneId : JsString) :
    List JsString → Nat → SanitizeState → List WorkspaceView × SanitizeState
  | [], _, state => ([], state)
  | sessionId :: sessionIds, index, state =>
    let (id, state) := uniqueViewId (defaultViewId paneId index) state
    let (views, state) := defaultViews paneId sessionIds (index + 1) state
    (createWorkspaceView sessionId id :: views, state)

def isVertical (value : Option JsValue) : Bool := isString value "vertical"

def isHorizontal (value : Option JsValue) : Bool := isString value "horizontal"

def numberOf : Option JsValue → Option ℚ
  | some (.number value) => value
  | _ => none

def sanitizeTabColors : Option JsValue → List (JsString × JsString)
  | some (.object fields) => fields.filterMap fun field =>
    match field.2 with
    | .string color => if !field.1.isEmpty && isViewColor color then some (field.1, color) else none
    | _ => none
  | _ => []

def createSanitizedPane (sessionId id : JsString) (state : SanitizeState) :
    Option WorkspacePane × SanitizeState :=
  if maxWorkspacePanes ≤ state.paneCount then (none, state)
  else
    let (paneId, state) := uniqueNodeId id state
    let (views, state) :=
      defaultViews paneId ((uniqueStrings [sessionId]).take maxWorkspaceGroupTabs) 0 state
    match (views.find? fun view => view.sessionId = sessionId).or views.head? with
    | none => (none, state)
    | some activeView =>
      (createWorkspacePaneFromViews paneId views activeView.id,
        { state with paneCount := state.paneCount + 1 })

/-- At most four sessions come here, so that every pane is there. -/
def buildLegacySplit (direction : WorkspaceSplitDirection) :
    List JsString → Nat → SanitizeState → Option WorkspaceNode × SanitizeState
  | [], _, state => (none, state)
  | sessionId :: sessionIds, offset, state =>
    match createSanitizedPane sessionId (jsString "pane-legacy-" ++ decimal offset) state with
    | (none, state) => (none, state)
    | (some first, state) =>
      if sessionIds.isEmpty then (some (.pane first), state)
      else
        let (id, state) := uniqueNodeId (jsString "split-legacy-" ++ decimal offset) state
        match buildLegacySplit direction sessionIds (offset + 1) state with
        | (none, state) => (none, state)
        | (some second, state) =>
          (some (.split id direction (1 / (sessionIds.length + 1 : Nat)) (.pane first) second), state)

section Sanitize

variable (isOther : JsChar → Bool)

def sanitizeView (item : JsValue) (paneId : JsString) (index : Nat) (state : SanitizeState) :
    Option (WorkspaceView × SanitizeState) :=
  match fields? (some item) with
  | none => none
  | some source =>
    let sessionId := cleanString isOther (property source "sessionId") 256
    if sessionId.isEmpty then none
    else
      let (id, state) := uniqueViewId
        (orDefault (cleanString isOther (property source "id") 128) (defaultViewId paneId index)) state
      some ({ id := id
              sessionId := sessionId
              title := cleanString isOther (property source "title") 128
              color := sanitizeViewColor (property source "color")
              keyMode := normalizeTerminalKeyMode (property source "keyMode") }, state)

/-- The loop over the entries, with room for so many views. -/
def sanitizeViewsFrom (paneId : JsString) :
    List JsValue → Nat → Nat → SanitizeState → List WorkspaceView × SanitizeState
  | [], _, _, state => ([], state)
  | _ :: _, _, 0, state => ([], state)
  | item :: items, index, room + 1, state =>
    match sanitizeView isOther item paneId index state with
    | none => sanitizeViewsFrom paneId items (index + 1) (room + 1) state
    | some (view, state) =>
      let (views, state) := sanitizeViewsFrom paneId items (index + 1) room state
      (view :: views, state)

def sanitizeWorkspaceViews (value : Option JsValue) (paneId : JsString) (state : SanitizeState) :
    List WorkspaceView × SanitizeState :=
  match value with
  | some (.array items) => sanitizeViewsFrom isOther paneId items 0 maxWorkspaceGroupTabs state
  | _ => ([], state)

/-- The sessions of a pane that has no views of its own. -/
def requestedLegacyIds (source : List (JsString × JsValue)) : List JsString :=
  let requestedActiveSessionId := cleanString isOther (property source "sessionId") 256
  let legacySessionIds := uniqueStrings (validStrings isOther (property source "sessionIds"))
  if !requestedActiveSessionId.isEmpty && !legacySessionIds.contains requestedActiveSessionId then
    requestedActiveSessionId :: legacySessionIds
  else legacySessionIds

def sanitizePaneViews (source : List (JsString × JsValue)) (paneId : JsString)
    (state : SanitizeState) : List WorkspaceView × SanitizeState :=
  let (storedViews, state) := sanitizeWorkspaceViews isOther (property source "views") paneId state
  if storedViews.isEmpty then
    defaultViews paneId ((requestedLegacyIds isOther source).take maxWorkspaceGroupTabs) 0 state
  else (storedViews, state)

/-- The view with the stored id, or the first of the stored session, or the first. -/
def storedActiveView (source : List (JsString × JsValue)) (views : List WorkspaceView) :
    Option WorkspaceView :=
  ((views.find? fun view => view.id = cleanString isOther (property source "activeViewId") 128).or
    (views.find? fun view =>
      view.sessionId = cleanString isOther (property source "sessionId") 256)).or views.head?

/-- The branch of `sanitizeWorkspaceNode` for a pane. -/
def sanitizeWorkspacePane (source : List (JsString × JsValue)) (path : JsString)
    (state : SanitizeState) : Option WorkspacePane × SanitizeState :=
  let (paneId, state) := uniqueNodeId
    (orDefault (cleanString isOther (property source "id") 128) (jsString "pane-" ++ path)) state
  let (views, state) := sanitizePaneViews isOther source paneId state
  if maxWorkspacePanes ≤ state.paneCount then (none, state)
  else
    match storedActiveView isOther source views with
    | none => (none, state)
    | some activeView =>
      (createWorkspacePaneFromViews paneId views activeView.id,
        { state with paneCount := state.paneCount + 1 })

/-- The levels that are left count down to the deepest one. -/
def sanitizeWorkspaceNode :
    Nat → Option JsValue → JsString → SanitizeState → Option WorkspaceNode × SanitizeState
  | 0, _, _, state => (none, state)
  | levels + 1, value, path, state =>
    match fields? value with
    | none => (none, state)
    | some source =>
      if isString (property source "kind") "pane" then
        let (pane, state) := sanitizeWorkspacePane isOther source path state
        (pane.map .pane, state)
      else if !JsValue.isString (property source "kind") "split" then (none, state)
      else
        let (first, state) :=
          sanitizeWorkspaceNode levels (property source "first") (path ++ jsString "-first") state
        let (second, state) :=
          sanitizeWorkspaceNode levels (property source "second") (path ++ jsString "-second") state
        match first, second with
        | none, second => (second, state)
        | some first, none => (some first, state)
        | some first, some second =>
          let (id, state) := uniqueNodeId
            (orDefault (cleanString isOther (property source "id") 128) (jsString "split-" ++ path))
            state
          (some (.split id
            (if isVertical (property source "direction") then .vertical else .horizontal)
            (normalizeSplitRatio (numberOf (property source "ratio"))) first second), state)

def migrateLegacyWorkspace (source : List (JsString × JsValue)) (state : SanitizeState) :
    Option WorkspaceNode × SanitizeState :=
  let layout := property source "layout"
  let paneIds := (validStrings isOther (property source "paneIds")).take 4
  let activeId := cleanString isOther (property source "activeId") 256
  if !(isVertical layout || isHorizontal layout) || paneIds.length < 2 then
    if activeId.isEmpty then (none, state)
    else
      let (pane, state) := createSanitizedPane activeId (jsString "pane-legacy-active") state
      (pane.map .pane, state)
  else buildLegacySplit (if isVertical layout then .vertical else .horizontal) paneIds 0 state

def isCurrentVersion (source : List (JsString × JsValue)) : Bool :=
  match property source "version" with
  | some (.number (some version)) => version = 2 || version = 3 || version = 4
  | _ => false

def storedRoot (source : List (JsString × JsValue)) : Option WorkspaceNode × SanitizeState :=
  if isCurrentVersion source || (property source "root").isSome then
    sanitizeWorkspaceNode isOther (maxWorkspaceDepth + 1) (property source "root")
      (jsString "root") ⟨[], [], 0⟩
  else migrateLegacyWorkspace isOther source ⟨[], [], 0⟩

/-- Without a tree, a pane for the active session. -/
def withSinglePane (source : List (JsString × JsValue)) : Option WorkspaceNode :=
  let (root, state) := storedRoot isOther source
  let requestedActiveId := cleanString isOther (property source "activeId") 256
  root.or
    (if requestedActiveId.isEmpty then none
    else (createSanitizedPane requestedActiveId (jsString "pane-active") state).1.map .pane)

/-- The pane with the stored id, or the first that shows the active session, or the first. -/
def storedActivePane (source : List (JsString × JsValue)) (panes : List WorkspacePane) :
    Option WorkspacePane :=
  ((panes.find? fun pane => pane.id = cleanString isOther (property source "activePaneId") 128).or
    (panes.find? fun pane => pane.views.any fun view =>
      view.sessionId = cleanString isOther (property source "activeId") 256)).or panes.head?

def sanitizeWorkspaceSnapshot (value : JsValue) : WorkspaceSnapshot :=
  match fields? (some value) with
  | none => emptyWorkspaceSnapshot
  | some source =>
    let tabColors := sanitizeTabColors (property source "tabColors")
    let requestedActiveId := cleanString isOther (property source "activeId") 256
    let root := withSinglePane isOther source
    match storedActivePane isOther source (workspacePaneLeaves root) with
    | none => ⟨root, [], requestedActiveId, tabColors⟩
    | some pane =>
      let activeSessionId :=
        if pane.sessionIds.contains requestedActiveId then requestedActiveId else pane.sessionId
      { root :=
          if activeSessionId.isEmpty then root
          else activateWorkspacePaneSession root pane.id activeSessionId
        activePaneId := pane.id
        activeId := activeSessionId
        tabColors := tabColors }

end Sanitize

section Stored

def WorkspaceView.fields (view : WorkspaceView) : List (JsString × JsValue) :=
  [(jsString "id", .string view.id), (jsString "sessionId", .string view.sessionId),
    (jsString "title", .string view.title), (jsString "color", .string view.color),
    (jsString "keyMode", .string (jsString view.keyMode.name))]

def WorkspacePane.fields (pane : WorkspacePane) : List (JsString × JsValue) :=
  [(jsString "kind", .string (jsString "pane")), (jsString "id", .string pane.id),
    (jsString "activeViewId", .string pane.activeViewId),
    (jsString "views", .array (pane.views.map fun view => .object view.fields)),
    (jsString "sessionId", .string pane.sessionId),
    (jsString "sessionIds", .array (pane.sessionIds.map .string))]

def directionName : WorkspaceSplitDirection → String
  | .horizontal => "horizontal"
  | .vertical => "vertical"

def splitFields (id : JsString) (direction : WorkspaceSplitDirection) (ratio : ℚ)
    (first second : JsValue) : List (JsString × JsValue) :=
  [(jsString "kind", .string (jsString "split")), (jsString "id", .string id),
    (jsString "direction", .string (jsString (directionName direction))),
    (jsString "ratio", .number (some ratio)), (jsString "first", first),
    (jsString "second", second)]

def WorkspaceNode.toJson : WorkspaceNode → JsValue
  | .pane leaf => .object leaf.fields
  | .split id direction ratio first second =>
    .object (splitFields id direction ratio first.toJson second.toJson)

def WorkspaceSnapshot.fields (snapshot : WorkspaceSnapshot) : List (JsString × JsValue) :=
  [(jsString "version", .number (some 4)),
    (jsString "root", (snapshot.root.map (·.toJson)).getD .null),
    (jsString "activePaneId", .string snapshot.activePaneId),
    (jsString "activeId", .string snapshot.activeId),
    (jsString "tabColors", .object (snapshot.tabColors.map fun entry => (entry.1, .string entry.2)))]

/-- The snapshot as the value that it is read from again. -/
def WorkspaceSnapshot.toJson (snapshot : WorkspaceSnapshot) : JsValue := .object snapshot.fields

end Stored

end PortMate
