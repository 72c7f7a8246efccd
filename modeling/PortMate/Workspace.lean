import PortMate.JsValues

namespace PortMate

inductive TerminalKeyMode
  | remoteMode | localMode | normalMode | commandMode
  deriving DecidableEq

def TerminalKeyMode.name : TerminalKeyMode → String
  | remoteMode => "remote"
  | localMode => "local"
  | normalMode => "normal"
  | commandMode => "command"

inductive WorkspaceSplitDirection
  | horizontal | vertical
  deriving DecidableEq

inductive WorkspaceSplitPlacement
  | first | second
  deriving DecidableEq

structure WorkspaceView where
  id : JsString
  sessionId : JsString
  title : JsString
  color : JsString
  keyMode : TerminalKeyMode
  deriving DecidableEq

structure WorkspacePane where
  id : JsString
  activeViewId : JsString
  views : List WorkspaceView
  sessionId : JsString
  sessionIds : List JsString
  deriving DecidableEq

inductive WorkspaceNode
  | pane (pane : WorkspacePane)
  | split (id : JsString) (direction : WorkspaceSplitDirection) (ratio : ℚ)
      (first second : WorkspaceNode)
  deriving DecidableEq

def maxWorkspacePanes : Nat := 16

def maxWorkspaceDepth : Nat := 8

def maxWorkspaceGroupTabs : Nat := 32

def minWorkspaceSplitRatio : ℚ := 15 / 100

def maxWorkspaceSplitRatio : ℚ := 85 / 100

/-- The key mode of a view is of the right type already. -/
def normalizeView (view : WorkspaceView) : WorkspaceView :=
  { view with color := sanitizeColorText view.color }

def createWorkspaceView (sessionId id : JsString) : WorkspaceView :=
  ⟨id, sessionId, [], [], .remoteMode⟩

def createWorkspacePaneFromViews (id : JsString) (views : List WorkspaceView)
    (activeViewId : JsString) : Option WorkspacePane :=
  let normalizedViews := (views.take maxWorkspaceGroupTabs).map normalizeView
  normalizedViews.head?.map fun first =>
    let activeView := (normalizedViews.find? fun view => view.id = activeViewId).getD first
    { id := id
      activeViewId := activeView.id
      views := normalizedViews
      sessionId := activeView.sessionId
      sessionIds := normalizedViews.map (·.sessionId) }

/-- A pane for one session. Nothing for the empty session id, of which `uniqueStrings` leaves no
view. -/
def createWorkspacePane (sessionId id viewId : JsString) : Option WorkspacePane :=
  createWorkspacePaneFromViews id
    ((uniqueStrings [sessionId]).map fun sessionId => createWorkspaceView sessionId viewId) viewId

def normalizeSplitRatio (value : Option ℚ) : ℚ :=
  min maxWorkspaceSplitRatio (max minWorkspaceSplitRatio (value.getD (1 / 2)))

namespace WorkspaceNode

def leaves : WorkspaceNode → List WorkspacePane
  | .pane leaf => [leaf]
  | .split _ _ _ first second => first.leaves ++ second.leaves

def splits : WorkspaceNode → List (JsString × ℚ)
  | .pane _ => []
  | .split id _ ratio first second => (id, ratio) :: (first.splits ++ second.splits)

def height : WorkspaceNode → Nat
  | .pane _ => 0
  | .split _ _ _ first second => max first.height second.height + 1

/-- Every pane is edited; a pane of which nothing is left goes, with the split around it. -/
def editPanes (edit : WorkspacePane → Option WorkspacePane) : WorkspaceNode → Option WorkspaceNode
  | .pane leaf => (edit leaf).map .pane
  | .split id direction ratio first second =>
    match first.editPanes edit, second.editPanes edit with
    | none, rest => rest
    | some first, none => some first
    | some first, some second => some (.split id direction ratio first second)

end WorkspaceNode

def workspacePaneLeaves (root : Option WorkspaceNode) : List WorkspacePane :=
  (root.map (·.leaves)).getD []

def findWorkspacePane (root : Option WorkspaceNode) (paneId : JsString) : Option WorkspacePane :=
  (workspacePaneLeaves root).find? fun pane => pane.id = paneId

def onPane (paneId : JsString) (edit : WorkspacePane → Option WorkspacePane)
    (pane : WorkspacePane) : Option WorkspacePane :=
  if pane.id = paneId then edit pane else some pane

/-- `activateWorkspacePaneSession` at its pane. -/
def activatePaneSession (sessionId : JsString) (pane : WorkspacePane) : Option WorkspacePane :=
  if pane.sessionId = sessionId then some pane
  else
    match pane.views.find? fun view => view.sessionId = sessionId with
    | none => some pane
    | some view => createWorkspacePaneFromViews pane.id pane.views view.id

def activateWorkspacePaneSession (root : Option WorkspaceNode) (paneId sessionId : JsString) :
    Option WorkspaceNode :=
  root.bind (·.editPanes (onPane paneId (activatePaneSession sessionId)))

def activateWorkspacePaneView (root : Option WorkspaceNode) (paneId viewId : JsString) :
    Option WorkspaceNode :=
  root.bind (·.editPanes (onPane paneId fun pane =>
    if pane.activeViewId = viewId ∨ viewId ∉ pane.views.map (·.id) then some pane
    else createWorkspacePaneFromViews pane.id pane.views viewId))

/-- A requested index that is not finite is the end. -/
def insertionIndex (index : Option Int) (length : Nat) : Nat :=
  min length (index.getD length).toNat

/-- `removeWorkspacePaneView` at its pane. -/
def removePaneView (viewId : JsString) (pane : WorkspacePane) : Option WorkspacePane :=
  match pane.views.findIdx? fun view => view.id = viewId with
  | none => some pane
  | some removedIndex =>
    let views := pane.views.filter fun view => view.id ≠ viewId
    views.head?.bind fun first =>
      createWorkspacePaneFromViews pane.id views
        (if pane.activeViewId = viewId then
          (views.getD (min removedIndex (views.length - 1)) first).id
        else pane.activeViewId)

def removeWorkspacePaneView (root : Option WorkspaceNode) (paneId viewId : JsString) :
    Option WorkspaceNode :=
  root.bind (·.editPanes (onPane paneId (removePaneView viewId)))

def removeWorkspacePaneSession (root : Option WorkspaceNode) (paneId sessionId : JsString) :
    Option WorkspaceNode :=
  root.bind (·.editPanes (onPane paneId fun pane =>
    ((pane.views.filter fun view => view.sessionId = sessionId).map (·.id)).foldl
      (fun next viewId => next.bind (removePaneView viewId)) (some pane)))

def removeWorkspacePane (root : Option WorkspaceNode) (paneId : JsString) :
    Option WorkspaceNode :=
  root.bind (·.editPanes (onPane paneId fun _ => none))

/-- `insertWorkspacePaneView` at its pane. -/
def insertPaneView (view : WorkspaceView) (index : Option Int) (pane : WorkspacePane) :
    WorkspacePane :=
  if maxWorkspaceGroupTabs ≤ pane.views.length ∨ view.id ∈ pane.views.map (·.id) then pane
  else
    -- There is a view now, so that there is a pane.
    (createWorkspacePaneFromViews pane.id
      (pane.views.insertIdx (insertionIndex index pane.views.length) view) view.id).getD pane

/-- `insertWorkspacePaneView` below the root. -/
def WorkspaceNode.insertView (paneId : JsString) (view : WorkspaceView) (index : Option Int) :
    WorkspaceNode → WorkspaceNode
  | .pane leaf => .pane (if leaf.id = paneId then insertPaneView view index leaf else leaf)
  | .split id direction ratio first second =>
    if view.id ∈ (first.leaves ++ second.leaves).flatMap fun pane => pane.views.map (·.id) then
      .split id direction ratio first second
    else
      let edited := first.insertView paneId view index
      if edited = first then
        .split id direction ratio first (second.insertView paneId view index)
      else .split id direction ratio edited second

def insertWorkspacePaneView (root : Option WorkspaceNode) (paneId : JsString)
    (view : WorkspaceView) (index : Option Int) : Option WorkspaceNode :=
  root.map (·.insertView paneId view index)

/-- `splitWorkspacePaneAtDepth` and `splitWorkspacePaneWithViewAtDepth`, once the new pane is
made. -/
def WorkspaceNode.splitAtDepth (paneId : JsString) (direction : WorkspaceSplitDirection)
    (nextPane : WorkspacePane) (splitId : JsString) (placement : WorkspaceSplitPlacement) :
    WorkspaceNode → Nat → WorkspaceNode
  | .pane leaf, depth =>
    if leaf.id ≠ paneId ∨ maxWorkspaceDepth ≤ depth then .pane leaf
    else
      match placement with
      | .first => .split splitId direction (1 / 2) (.pane nextPane) (.pane leaf)
      | .second => .split splitId direction (1 / 2) (.pane leaf) (.pane nextPane)
  | .split id splitDirection ratio first second, depth =>
    let edited := first.splitAtDepth paneId direction nextPane splitId placement (depth + 1)
    if edited ≠ first then .split id splitDirection ratio edited second
    else .split id splitDirection ratio first
      (second.splitAtDepth paneId direction nextPane splitId placement (depth + 1))

/-- The least depth of a pane with the id, or nothing. -/
def workspacePaneDepth (paneId : JsString) : WorkspaceNode → Nat → Option Nat
  | .pane pane, depth => if pane.id = paneId then some depth else none
  | .split _ _ _ first second, depth =>
    match workspacePaneDepth paneId first (depth + 1),
        workspacePaneDepth paneId second (depth + 1) with
    | some one, some two => some (min one two)
    | one, two => one.or two

/-- For the empty session id the source puts a null in the place of the new pane, and the workspace
is lost. -/
def splitWorkspacePane (root : WorkspaceNode) (paneId : JsString)
    (direction : WorkspaceSplitDirection) (newSessionId newPaneId splitId newViewId : JsString)
    (placement : WorkspaceSplitPlacement) : Option WorkspaceNode :=
  match createWorkspacePane newSessionId newPaneId newViewId with
  | some nextPane => some (root.splitAtDepth paneId direction nextPane splitId placement 0)
  | none =>
    if (workspacePaneDepth paneId root 0).any (· < maxWorkspaceDepth) then none else some root

def splitWorkspacePaneWithView (root : WorkspaceNode) (paneId : JsString)
    (direction : WorkspaceSplitDirection) (view : WorkspaceView) (newPaneId splitId : JsString)
    (placement : WorkspaceSplitPlacement) : Option WorkspaceNode :=
  (createWorkspacePaneFromViews newPaneId [view] view.id).map fun nextPane =>
    root.splitAtDepth paneId direction nextPane splitId placement 0

def reorderPaneView (viewId : JsString) (targetIndex : Option Int) (pane : WorkspacePane) :
    Option WorkspacePane :=
  match pane.views.findIdx? (fun view => view.id = viewId),
      pane.views.find? fun view => view.id = viewId with
  | some sourceIndex, some view =>
    let boundedIndex := insertionIndex targetIndex pane.views.length
    let index := if sourceIndex < boundedIndex then boundedIndex - 1 else boundedIndex
    if sourceIndex = index then some pane
    else
      createWorkspacePaneFromViews pane.id
        ((pane.views.filter fun view => view.id ≠ viewId).insertIdx index view) view.id
  | _, _ => some pane

def moveWorkspacePaneView (root : Option WorkspaceNode) (sourcePaneId targetPaneId viewId : JsString)
    (targetIndex : Option Int) : Option WorkspaceNode :=
  match findWorkspacePane root sourcePaneId, findWorkspacePane root targetPaneId with
  | some source, some target =>
    match source.views.find? fun view => view.id = viewId with
    | none => root
    | some view =>
      if sourcePaneId = targetPaneId then
        root.bind (·.editPanes (onPane sourcePaneId (reorderPaneView viewId targetIndex)))
      else if viewId ∈ target.views.map (·.id) then root
      else if maxWorkspaceGroupTabs ≤ target.views.length then root
      else
        match removeWorkspacePaneView root sourcePaneId viewId with
        | none => root
        | some withoutView => insertWorkspacePaneView (some withoutView) targetPaneId view targetIndex
  | _, _ => root

def moveWorkspacePaneSession (root : Option WorkspaceNode)
    (sourcePaneId targetPaneId sessionId : JsString) : Option WorkspaceNode :=
  if sourcePaneId = targetPaneId then root
  else
    match findWorkspacePane root sourcePaneId, findWorkspacePane root targetPaneId with
    | some source, some target =>
      match source.views.find? fun view => view.sessionId = sessionId with
      | none => root
      | some sourceView =>
        match target.views.find? fun view => view.sessionId = sessionId with
        | some existing =>
          activateWorkspacePaneView (removeWorkspacePaneView root sourcePaneId sourceView.id)
            targetPaneId existing.id
        | none => moveWorkspacePaneView root sourcePaneId targetPaneId sourceView.id none
    | _, _ => root

def moveWorkspacePaneViewToNewGroup (root : Option WorkspaceNode)
    (sourcePaneId targetPaneId viewId : JsString) (direction : WorkspaceSplitDirection)
    (newPaneId splitId : JsString) (placement : WorkspaceSplitPlacement) : Option WorkspaceNode :=
  match findWorkspacePane root sourcePaneId, findWorkspacePane root targetPaneId with
  | some source, some _ =>
    match source.views.find? fun view => view.id = viewId with
    | none => root
    | some view =>
      if sourcePaneId = targetPaneId ∧ source.views.length ≤ 1 then root
      else
        let paneDelta := if 1 < source.views.length then 1 else 0
        if maxWorkspacePanes < (workspacePaneLeaves root).length + paneDelta then root
        else
          match removeWorkspacePaneView root sourcePaneId viewId with
          | none => root
          | some withoutView =>
            if (findWorkspacePane (some withoutView) targetPaneId).isNone then root
            else
              let splitRoot := splitWorkspacePaneWithView withoutView targetPaneId direction view
                newPaneId splitId placement
              if splitRoot = some withoutView then root else splitRoot
  | _, _ => root

def splitWorkspacePaneViewToGroup (root : Option WorkspaceNode) (sourcePaneId viewId : JsString)
    (direction : WorkspaceSplitDirection) (newPaneId splitId : JsString)
    (placement : WorkspaceSplitPlacement) : Option WorkspaceNode :=
  if maxWorkspacePanes ≤ (workspacePaneLeaves root).length then root
  else
    match findWorkspacePane root sourcePaneId with
    | none => root
    | some source =>
      match source.views.find? fun view => view.id = viewId with
      | none => root
      | some view =>
        if source.views.length ≤ 1 then root
        else
          match removeWorkspacePaneView root sourcePaneId viewId with
          | none => root
          | some withoutView =>
            let splitRoot := splitWorkspacePaneWithView withoutView sourcePaneId direction view
              newPaneId splitId placement
            if splitRoot = some withoutView then root else splitRoot

def splitWorkspacePaneSessionToGroup (root : Option WorkspaceNode)
    (sourcePaneId sessionId : JsString) (direction : WorkspaceSplitDirection)
    (newPaneId splitId : JsString) (placement : WorkspaceSplitPlacement) : Option WorkspaceNode :=
  match (findWorkspacePane root sourcePaneId).bind fun source =>
      source.views.find? fun view => view.sessionId = sessionId with
  | some view =>
    splitWorkspacePaneViewToGroup root sourcePaneId view.id direction newPaneId splitId placement
  | none => root

def mergeWorkspacePaneGroups (root : Option WorkspaceNode) (sourcePaneId targetPaneId : JsString) :
    Option WorkspaceNode :=
  if sourcePaneId = targetPaneId then root
  else
    match findWorkspacePane root sourcePaneId, findWorkspacePane root targetPaneId with
    | some source, some target =>
      let mergedViews := target.views ++ source.views
      if maxWorkspaceGroupTabs < mergedViews.length then root
      else
        root.bind (·.editPanes fun pane =>
          if pane.id = sourcePaneId then none
          else if pane.id = targetPaneId then
            createWorkspacePaneFromViews pane.id mergedViews source.activeViewId
          else some pane)
    | _, _ => root

def swapWorkspacePanes (root : Option WorkspaceNode) (firstPaneId secondPaneId : JsString) :
    Option WorkspaceNode :=
  if firstPaneId = secondPaneId then root
  else
    match findWorkspacePane root firstPaneId, findWorkspacePane root secondPaneId with
    | some firstPane, some secondPane =>
      root.bind (·.editPanes fun pane =>
        if pane.id = firstPane.id then some secondPane
        else if pane.id = secondPane.id then some firstPane
        else some pane)
    | _, _ => root

/-- `updateWorkspaceSplitRatio`: a split with the id keeps what is below it. -/
def WorkspaceNode.updateSplitRatio (splitId : JsString) (ratio : Option ℚ) :
    WorkspaceNode → WorkspaceNode
  | .pane leaf => .pane leaf
  | .split id direction old first second =>
    if id = splitId then .split id direction (normalizeSplitRatio ratio) first second
    else .split id direction old (first.updateSplitRatio splitId ratio)
      (second.updateSplitRatio splitId ratio)

def updateWorkspaceSplitRatio (root : Option WorkspaceNode) (splitId : JsString)
    (ratio : Option ℚ) : Option WorkspaceNode :=
  root.map (·.updateSplitRatio splitId ratio)

end PortMate
