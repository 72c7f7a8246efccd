import PortMate.ShellPieces

namespace PortMate

open List ShellToken

/-- What an upload runs behind its three assignments. -/
def scpUploadScript : String :=
  "if [ -z \"$source_name\" ]; then source_name=portmate-upload.bin; fi; " ++
  "case \"$dst\" in */) target=\"$\x7bdst%/\x7d/$source_name\" ;; " ++
  "*) if [ -d \"$dst\" ]; then target=\"$\x7bdst%/\x7d/$source_name\"; else target=\"$dst\"; fi ;; esac; " ++
  "case \"$target\" in */*) part=\"$\x7btarget%/*\x7d/$\x7btarget##*/\x7d.portmate-part\" ;; " ++
  "*) part=\"$target.portmate-part\" ;; esac; " ++
  "portable_path() \x7b case \"$1\" in -*) printf './%s\\n' \"$1\" ;; *) printf '%s\\n' \"$1\" ;; esac; \x7d; " ++
  "target=$(portable_path \"$target\") || exit 1; part=$(portable_path \"$part\") || exit 1; " ++
  "reject_link() \x7b if [ -L \"$1\" ]; then printf 'PortMate refuses symbolic link: %s\\n' \"$1\" >&2; return 1; fi; \x7d; " ++
  "reject_path_components() \x7b component_path=\"$1\"; case \"$component_path\" in /*) current=/; rest=\"$\x7bcomponent_path#/\x7d\" ;; *) current=.; rest=\"$component_path\" ;; esac; while [ -n \"$rest\" ]; do component=\"$\x7brest%%/*\x7d\"; if [ \"$rest\" = \"$component\" ]; then rest=; else rest=\"$\x7brest#*/\x7d\"; fi; [ -z \"$component\" ] && continue; if [ \"$current\" = / ] || [ \"$current\" = . ]; then current=\"$current$component\"; else current=\"$current/$component\"; fi; if ! reject_link \"$current\"; then return 1; fi; done; \x7d; " ++
  "file_size() \x7b value=$(wc -c < \"$1\") || return 1; value=$(printf '%s' \"$value\" | tr -d '[:space:]') || return 1; case \"$value\" in ''|*[!0-9]*) return 1 ;; esac; printf '%s\\n' \"$value\"; \x7d; " ++
  "file_links() \x7b value=$(stat -c '%h' \"$1\" 2>/dev/null) || value=$(stat -f '%l' \"$1\" 2>/dev/null) || return 1; case \"$value\" in ''|*[!0-9]*) return 1 ;; esac; printf '%s\\n' \"$value\"; \x7d; " ++
  "ensure_private_part() \x7b links=$(file_links \"$1\") || \x7b printf 'PortMate cannot verify remote resume link count: %s\\n' \"$1\" >&2; return 1; \x7d; [ \"$links\" -eq 1 ] || \x7b printf 'PortMate refuses shared remote resume file: %s\\n' \"$1\" >&2; return 1; \x7d; \x7d; " ++
  "part_sha256() \x7b if command -v sha256sum >/dev/null 2>&1; then value=$(sha256sum < \"$1\") || return 1; elif command -v shasum >/dev/null 2>&1; then value=$(shasum -a 256 < \"$1\") || return 1; elif command -v sha256 >/dev/null 2>&1; then value=$(sha256 -q \"$1\") || return 1; else printf 'PortMate SCP upload has no SHA-256 tool\\n' >&2; return 1; fi; value=$\x7bvalue%% *\x7d; [ -n \"$value\" ] || return 1; printf '%s\\n' \"$value\"; \x7d; " ++
  "if ! reject_path_components \"$target\" || ! reject_path_components \"$part\"; then exit 1; fi; " ++
  "printf '__PORTMATE_SIZE__%s\\n' \"$total\"; " ++
  "offset=0; " ++
  "if [ -e \"$part\" ]; then if ! ensure_private_part \"$part\"; then exit 1; fi; " ++
  "if current=$(file_size \"$part\" 2>/dev/null); then " ++
  "if [ \"$current\" -eq 0 ]; then offset=0; elif [ \"$current\" -le \"$total\" ]; then " ++
  "printf '__PORTMATE_RESUME_CANDIDATE__%s\\n' \"$current\"; " ++
  "if ! IFS= read -r expected_prefix_sha256; then exit 1; fi; " ++
  "if ! actual_prefix_sha256=$(part_sha256 \"$part\"); then printf 'PortMate SCP upload cannot hash resume prefix\\n' >&2; exit 1; fi; " ++
  "if [ \"$expected_prefix_sha256\" = \"__PORTMATE_PREFIX_SHA256__$actual_prefix_sha256\" ]; then offset=$current; else : > \"$part\" || exit 1; fi; " ++
  "else : > \"$part\" || exit 1; fi; " ++
  "else : > \"$part\" || exit 1; fi; " ++
  "else : > \"$part\" || exit 1; fi; " ++
  "printf '__PORTMATE_RESUME__%s\\n' \"$offset\"; " ++
  "printf '__PORTMATE_PROGRESS__%s\\n' \"$offset\"; " ++
  "if [ \"$offset\" -lt \"$total\" ]; then " ++
  "cat >> \"$part\" || exit 1; " ++
  "if current=$(file_size \"$part\" 2>/dev/null); then " ++
  "printf '__PORTMATE_PROGRESS__%s\\n' \"$current\"; " ++
  "fi; " ++
  "fi; " ++
  "final=$(file_size \"$part\") || exit 1; " ++
  "if [ \"$final\" -ne \"$total\" ]; then " ++
  "printf 'PortMate SCP upload size mismatch: %s of %s\\n' \"$final\" \"$total\" >&2; exit 1; " ++
  "fi; " ++
  "if ! reject_path_components \"$target\" || ! reject_path_components \"$part\" || ! ensure_private_part \"$part\"; then exit 1; fi; " ++
  "ln \"$part\" \"$target\" && rm \"$part\" || exit 1; " ++
  "final_target=$(file_size \"$target\") || exit 1; printf '__PORTMATE_DONE__%s\\n' \"$final_target\""

def scpUploadCommand (remoteDestination fileName : List Char) (total : Nat) : List CommandPiece :=
  [.text "dst=", .shellQuote remoteDestination, .text "; source_name=", .shellQuote fileName,
    .text "; total=", .number total, .text ("; target=; part=; " ++ scpUploadScript)]

def scpDownloadScript : String :=
  "reject_link() \x7b if [ -L \"$1\" ]; then printf 'PortMate refuses symbolic link: %s\\n' \"$1\" >&2; return 1; fi; \x7d; reject_path_components() \x7b component_path=\"$1\"; case \"$component_path\" in /*) current=/; rest=\"$\x7bcomponent_path#/\x7d\" ;; *) current=.; rest=\"$component_path\" ;; esac; while [ -n \"$rest\" ]; do component=\"$\x7brest%%/*\x7d\"; if [ \"$rest\" = \"$component\" ]; then rest=; else rest=\"$\x7brest#*/\x7d\"; fi; [ -z \"$component\" ] && continue; if [ \"$current\" = / ] || [ \"$current\" = . ]; then current=\"$current$component\"; else current=\"$current/$component\"; fi; reject_link \"$current\" || return 1; done; \x7d; if ! reject_path_components \"$source\" || [ ! -f \"$source\" ]; then printf 'PortMate refuses symbolic link or non-file source: %s\\n' \"$source\" >&2; exit 1; fi; exec scp -f \"$source\""

def scpDownloadCommand (remoteSource : List Char) : List CommandPiece :=
  [.text "source=", .shellQuote remoteSource, .text ("; " ++ scpDownloadScript)]

inductive TmuxMutationAction
  | renameSession | killSession | newWindow | renameWindow | killWindow | killPane | selectPane
  | breakPane | movePaneHorizontal | movePaneVertical | splitPaneHorizontal | splitPaneVertical
  | swapPanePrevious | swapPaneNext | resizePaneLeft | resizePaneRight | resizePaneUp
  | resizePaneDown | selectLayout
  deriving DecidableEq

inductive TmuxWindowLayout
  | evenHorizontal | evenVertical | mainHorizontal | mainVertical | tiled
  deriving DecidableEq

structure TmuxMutationRequest where
  sessionId : String
  action : TmuxMutationAction
  target : List Char
  name : Option (List Char)
  destination : Option (List Char)
  layout : Option TmuxWindowLayout
  amount : Option UInt16

/-- `normalize_tmux_target` and `normalize_tmux_name`, each with its name and limit. -/
def normalizeTmuxText (label : String) (limit : Nat) (text : List Char) :
    Except String (List Char) :=
  let text := trimText text
  if text.isEmpty then .error (label ++ "不能为空")
  else if text.length > limit then
    .error (label ++ "不能超过 " ++ toString limit ++ " 个字符")
  else if text.any isRustControl then .error (label ++ "不能包含控制字符")
  else .ok text

def normalizeTmuxTarget : List Char → Except String (List Char) :=
  normalizeTmuxText "Tmux target " 256

def normalizeTmuxName : List Char → Except String (List Char) := normalizeTmuxText "Tmux 名称" 128

def normalizeTmuxResizeAmount (amount : Option UInt16) : Except String UInt16 :=
  let amount := amount.getD 5
  if 1 ≤ amount && amount ≤ 100 then .ok amount
  else .error "Tmux pane 调整步长必须在 1..=100 之间"

def tmuxWindowLayoutArgument : TmuxWindowLayout → String
  | .evenHorizontal => "even-horizontal"
  | .evenVertical => "even-vertical"
  | .mainHorizontal => "main-horizontal"
  | .mainVertical => "main-vertical"
  | .tiled => "tiled"

def tmuxAttachCommand (target : List Char) : Except String (List CommandPiece) := do
  let target ← normalizeTmuxTarget target
  pure [.text "if tmux has-session -t ", .shellQuote target,
    .text " 2>/dev/null; then exec tmux attach-session -t ", .shellQuote target,
    .text "; else exec tmux new-session -s ", .shellQuote target, .text "; fi"]

def tmuxPaneSyncCommand (target : List Char) (enabled : Bool) :
    Except String (List CommandPiece) := do
  let target ← normalizeTmuxTarget target
  pure [.text "tmux set-option -w -t ", .shellQuote target, .text " synchronize-panes ",
    .text (if enabled then "on" else "off")]

/-- The command for a request, with its target and its name checked. -/
def tmuxMutationPieces (request : TmuxMutationRequest) (target : List Char)
    (name : Option (List Char)) : Except String (List CommandPiece) :=
  match request.action with
  | .renameSession => do
    let name ← name.elim (.error "重命名 session 需要新名称") .ok
    pure [.text "tmux rename-session -t ", .shellQuote target, .text " ", .shellQuote name]
  | .killSession => pure [.text "tmux kill-session -t ", .shellQuote target]
  | .newWindow =>
    match name with
    | some name =>
      pure [.text "tmux new-window -t ", .shellQuote target, .text " -n ", .shellQuote name]
    | none => pure [.text "tmux new-window -t ", .shellQuote target]
  | .renameWindow => do
    let name ← name.elim (.error "重命名 window 需要新名称") .ok
    pure [.text "tmux rename-window -t ", .shellQuote target, .text " ", .shellQuote name]
  | .killWindow => pure [.text "tmux kill-window -t ", .shellQuote target]
  | .killPane => pure [.text "tmux kill-pane -t ", .shellQuote target]
  | .selectPane => pure [.text "tmux select-pane -t ", .shellQuote target]
  | .breakPane => pure [.text "tmux break-pane -d -s ", .shellQuote target]
  | .movePaneHorizontal => movePane "-h"
  | .movePaneVertical => movePane "-v"
  | .splitPaneHorizontal => pure [.text "tmux split-window -h -t ", .shellQuote target]
  | .splitPaneVertical => pure [.text "tmux split-window -v -t ", .shellQuote target]
  | .swapPanePrevious => pure [.text "tmux swap-pane -t ", .shellQuote target, .text " -U"]
  | .swapPaneNext => pure [.text "tmux swap-pane -t ", .shellQuote target, .text " -D"]
  | .resizePaneLeft => resizePane " -L "
  | .resizePaneRight => resizePane " -R "
  | .resizePaneUp => resizePane " -U "
  | .resizePaneDown => resizePane " -D "
  | .selectLayout => do
    let layout ← request.layout.elim (.error "切换 window 布局需要 layout") .ok
    pure [.text "tmux select-layout -t ", .shellQuote target, .text " ",
      .text (tmuxWindowLayoutArgument layout)]
where
  movePane (direction : String) : Except String (List CommandPiece) := do
    let destination ← request.destination.elim (.error "跨 window 移动 pane 需要目标 window") .ok
    let destination ← normalizeTmuxTarget destination
    pure [.text "tmux move-pane -d ", .text direction, .text " -s ", .shellQuote target,
      .text " -t ", .shellQuote destination]
  resizePane (direction : String) : Except String (List CommandPiece) := do
    let amount ← normalizeTmuxResizeAmount request.amount
    pure [.text "tmux resize-pane -t ", .shellQuote target, .text direction,
      .number amount.toNat]

def tmuxMutationCommand (request : TmuxMutationRequest) : Except String (List CommandPiece) := do
  let target ← normalizeTmuxTarget request.target
  let name ← request.name.mapM normalizeTmuxName
  tmuxMutationPieces request target name

/-- The commands that are built, with their fields. -/
inductive BuiltCommand
  | scpUpload (remoteDestination fileName : List Char) (total : Nat)
  | scpDownload (remoteSource : List Char)
  | tmuxAttach (target : List Char)
  | tmuxPaneSync (target : List Char) (enabled : Bool)
  | tmuxMutation (request : TmuxMutationRequest)

/-- What of a command is chosen and not written: the builder and its choices. -/
inductive CommandShape
  | scpUpload
  | scpDownload
  | tmuxAttach
  | tmuxPaneSync (enabled : Bool)
  | tmuxMutation (action : TmuxMutationAction) (named : Bool) (layout : Option TmuxWindowLayout)
  deriving DecidableEq

namespace BuiltCommand

def shape : BuiltCommand → CommandShape
  | scpUpload .. => .scpUpload
  | scpDownload _ => .scpDownload
  | tmuxAttach _ => .tmuxAttach
  | tmuxPaneSync _ enabled => .tmuxPaneSync enabled
  | tmuxMutation request => .tmuxMutation request.action request.name.isSome request.layout

def pieces : BuiltCommand → Except String (List CommandPiece)
  | scpUpload remoteDestination fileName total =>
    .ok (scpUploadCommand remoteDestination fileName total)
  | scpDownload remoteSource => .ok (scpDownloadCommand remoteSource)
  | tmuxAttach target => tmuxAttachCommand target
  | tmuxPaneSync target enabled => tmuxPaneSyncCommand target enabled
  | tmuxMutation request => tmuxMutationCommand request

/-- The tokens that a shell reads of a command line with its end. -/
def tokens (pieces : List CommandPiece) : List ShellToken :=
  shellTokens (renderPieces pieces ++ ['\n'])

end BuiltCommand

section Templates

namespace CommandPiece

def blank : CommandPiece → CommandPiece
  | text format => .text format
  | shellQuote _ => .shellQuote []
  | number _ => .number 0

end CommandPiece

theorem pieceTemplate_blank (slot : Nat) (pieces : List CommandPiece) :
    pieceTemplate slot (pieces.map CommandPiece.blank) = pieceTemplate slot pieces := by
  induction pieces generalizing slot with
  | nil => rfl
  | cons piece pieces ih =>
    rw [map_cons, pieceTemplate, pieceTemplate, ih]
    cases piece <;> rfl

/-- Where the slots stand a word can go on, and each of them is the last part of its word. -/
def SteadyTemplate (template : List ShellSymbol) : Prop :=
  shellLexer.StepsMeet OpenSlot .start (template ++ [.char '\n']) ∧
    ∀ token ∈ templateTokens (template ++ [.char '\n']), token.SlotsLast

instance (template : List ShellSymbol) : Decidable (SteadyTemplate template) :=
  inferInstanceAs (Decidable (_ ∧ _))

theorem steady_tokens {pieces : List CommandPiece}
    (steady : SteadyTemplate (pieceTemplate 0 pieces)) :
    BuiltCommand.tokens pieces =
        (templateTokens (pieceTemplate 0 pieces ++ [.char '\n'])).map (pieceValues pieces).token ∧
      (BuiltCommand.tokens pieces).map assigns =
        (templateTokens (pieceTemplate 0 pieces ++ [.char '\n'])).map assigns := by
  have text : (pieceValues pieces).fill (pieceTemplate 0 pieces ++ [.char '\n']) =
      renderPieces pieces ++ ['\n'] := by
    rw [ShellValues.fill, flatMap_append]
    exact congrArg (· ++ ['\n']) (fill_pieceValues pieces)
  have read := tokens_fill (pieceValues pieces) steady.1
  rw [text] at read
  refine ⟨read, ?_⟩
  rw [BuiltCommand.tokens, read, map_map]
  exact map_congr_left fun token mem => assigns_token _ (steady.2 token mem)

theorem steady_of_front {front : List ShellSymbol}
    (slots : shellLexer.StepsMeet OpenSlot .start front)
    (closed : (shellGatherer.run none (shellLexer.run .start front).2).1 = none)
    (last : ∀ token ∈ templateTokens front, token.SlotsLast) (text : String) :
    SteadyTemplate (front ++ text.toList.map .char) := by
  have ends : front ++ text.toList.map .char ++ [.char '\n'] =
      front ++ (text.toList ++ ['\n']).map .char := by
    rw [map_append, append_assoc]
    rfl
  unfold SteadyTemplate
  rw [ends]
  exact ⟨(shellLexer.stepsMeet_append).mpr ⟨slots, stepsMeet_chars _ _⟩,
    slotsLast_chars closed last _⟩

theorem scpUploadCommand_steady (remoteDestination fileName : List Char) (total : Nat) :
    SteadyTemplate (pieceTemplate 0 (scpUploadCommand remoteDestination fileName total)) := by
  have front : pieceTemplate 0 (scpUploadCommand remoteDestination fileName total) =
      pieceTemplate 0 [.text "dst=", .shellQuote [], .text "; source_name=", .shellQuote [],
        .text "; total=", .number 0, .text "; target=; part=; "] ++
        scpUploadScript.toList.map .char := by
    simp only [scpUploadCommand, pieceTemplate, CommandPiece.symbols, String.toList_append,
      map_append, append_nil, append_assoc]
  rw [front]
  exact steady_of_front (by decide) (by decide) (by decide) _

theorem scpDownloadCommand_steady (remoteSource : List Char) :
    SteadyTemplate (pieceTemplate 0 (scpDownloadCommand remoteSource)) := by
  have front : pieceTemplate 0 (scpDownloadCommand remoteSource) =
      pieceTemplate 0 [.text "source=", .shellQuote [], .text "; "] ++
        scpDownloadScript.toList.map .char := by
    simp only [scpDownloadCommand, pieceTemplate, CommandPiece.symbols, String.toList_append,
      map_append, append_nil, append_assoc]
  rw [front]
  exact steady_of_front (by decide) (by decide) (by decide) _

end Templates

open CommandPiece

section TmuxFormats

/-- The format of a request, with the arguments left out. -/
def tmuxMutationFormat (action : TmuxMutationAction) (named : Bool)
    (layout : Option TmuxWindowLayout) : List CommandPiece :=
  match tmuxMutationPieces ⟨"", action, [], none, some ['x'], layout, none⟩ []
    (if named then some [] else none) with
  | .ok pieces => pieces.map blank
  | .error _ => []

theorem tmuxMutationPieces_blank {request : TmuxMutationRequest} {target : List Char}
    {name : Option (List Char)} {pieces : List CommandPiece}
    (built : tmuxMutationPieces request target name = .ok pieces) :
    pieces.map blank =
      tmuxMutationFormat request.action name.isSome request.layout := by
  obtain ⟨sessionId, action, field, given, destination, layout, amount⟩ := request
  have moved : ∀ direction, tmuxMutationPieces.movePane
      ⟨sessionId, action, field, given, destination, layout, amount⟩ target direction =
        .ok pieces → pieces.map blank =
      [.text "tmux move-pane -d ", .text direction, .text " -s ", .shellQuote [], .text " -t ",
        .shellQuote []] := by
    intro direction built
    obtain ⟨_, -, built⟩ := except_bind_eq_ok built
    obtain ⟨_, -, built⟩ := except_bind_eq_ok built
    cases built
    rfl
  have resized : ∀ direction, tmuxMutationPieces.resizePane
      ⟨sessionId, action, field, given, destination, layout, amount⟩ target direction =
        .ok pieces → pieces.map blank =
      [.text "tmux resize-pane -t ", .shellQuote [], .text direction, .number 0] := by
    intro direction built
    obtain ⟨_, -, built⟩ := except_bind_eq_ok built
    cases built
    rfl
  cases action with
  | renameSession | renameWindow =>
    cases name with
    | none => cases built
    | some name =>
      cases built
      rfl
  | newWindow =>
    cases name with
    | none | some name =>
      cases built
      rfl
  | selectLayout =>
    cases layout with
    | none => cases built
    | some layout =>
      cases built
      rfl
  | movePaneHorizontal | movePaneVertical => exact moved _ built
  | resizePaneLeft | resizePaneRight | resizePaneUp | resizePaneDown => exact resized _ built
  | killSession | killWindow | killPane | selectPane | breakPane | splitPaneHorizontal
  | splitPaneVertical | swapPanePrevious | swapPaneNext =>
    cases built
    rfl

def tmuxMutationActions : List TmuxMutationAction :=
  [.renameSession, .killSession, .newWindow, .renameWindow, .killWindow, .killPane, .selectPane,
    .breakPane, .movePaneHorizontal, .movePaneVertical, .splitPaneHorizontal, .splitPaneVertical,
    .swapPanePrevious, .swapPaneNext, .resizePaneLeft, .resizePaneRight, .resizePaneUp,
    .resizePaneDown, .selectLayout]

set_option maxRecDepth 4000 in
theorem tmuxMutationFormat_steady (action : TmuxMutationAction) (named : Bool)
    (layout : Option TmuxWindowLayout) :
    SteadyTemplate (pieceTemplate 0 (tmuxMutationFormat action named layout)) := by
  have others : ∀ action ∈ tmuxMutationActions, ∀ named ∈ [false, true],
      SteadyTemplate (pieceTemplate 0 (tmuxMutationFormat action named none)) := by decide +kernel
  have layouts : ∀ layout ∈ [TmuxWindowLayout.evenHorizontal, .evenVertical, .mainHorizontal,
      .mainVertical, .tiled],
      SteadyTemplate (pieceTemplate 0 (tmuxMutationFormat .selectLayout false (some layout))) := by
    decide
  have other := others action (by cases action <;> decide) named (by cases named <;> decide)
  cases action with
  | selectLayout =>
    cases layout with
    | none => exact other
    | some layout => exact layouts layout (by cases layout <;> decide)
  | renameSession | renameWindow | newWindow | movePaneHorizontal | movePaneVertical
  | resizePaneLeft | resizePaneRight | resizePaneUp | resizePaneDown | killSession | killWindow
  | killPane | selectPane | breakPane | splitPaneHorizontal | splitPaneVertical
  | swapPanePrevious | swapPaneNext => exact other

end TmuxFormats

/-- The format of a shape, with the arguments left out. -/
def CommandShape.format : CommandShape → List CommandPiece
  | scpUpload => (scpUploadCommand [] [] 0).map blank
  | scpDownload => (scpDownloadCommand []).map blank
  | tmuxAttach => [.text "if tmux has-session -t ", .shellQuote [],
      .text " 2>/dev/null; then exec tmux attach-session -t ", .shellQuote [],
      .text "; else exec tmux new-session -s ", .shellQuote [], .text "; fi"]
  | tmuxPaneSync enabled => [.text "tmux set-option -w -t ", .shellQuote [],
      .text " synchronize-panes ", .text (if enabled then "on" else "off")]
  | tmuxMutation action named layout => tmuxMutationFormat action named layout

set_option maxRecDepth 4000 in
theorem CommandShape.format_steady (shape : CommandShape) :
    SteadyTemplate (pieceTemplate 0 shape.format) := by
  cases shape with
  | scpUpload =>
    rw [format, pieceTemplate_blank]
    exact scpUploadCommand_steady [] [] 0
  | scpDownload =>
    rw [format, pieceTemplate_blank]
    exact scpDownloadCommand_steady []
  | tmuxAttach => decide +kernel
  | tmuxPaneSync enabled => cases enabled <;> decide
  | tmuxMutation action named layout => exact tmuxMutationFormat_steady action named layout

theorem BuiltCommand.pieces_blank {command : BuiltCommand} {pieces : List CommandPiece}
    (built : command.pieces = .ok pieces) :
    pieces.map blank = command.shape.format := by
  cases command with
  | scpUpload remoteDestination fileName total =>
    cases built
    rfl
  | scpDownload remoteSource =>
    cases built
    rfl
  | tmuxAttach target =>
    obtain ⟨_, -, built⟩ := except_bind_eq_ok built
    cases built
    rfl
  | tmuxPaneSync target enabled =>
    obtain ⟨_, -, built⟩ := except_bind_eq_ok built
    cases built
    rfl
  | tmuxMutation request =>
    obtain ⟨_, -, built⟩ := except_bind_eq_ok built
    obtain ⟨name, named, built⟩ := except_bind_eq_ok built
    have same : name.isSome = request.name.isSome := by
      cases given : request.name with
      | none =>
        rw [given] at named
        cases named
        rfl
      | some text =>
        rw [given] at named
        obtain ⟨_, -, named⟩ := except_bind_eq_ok named
        cases named
        rfl
    rw [tmuxMutationPieces_blank built, same]
    rfl

/-- A quoted text is read as exactly itself wherever the shell is outside quotes, and commands of
one shape have the same words, operators and assignments whatever their fields are. -/
theorem shell_commands_keep_their_words :
    (∀ reading : ShellReading, reading.Outside → ∀ text,
      reading.read (shellQuote text) = reading.withPart text) ∧
    (∀ (control : ShellControl) (outer : List ShellFrame) (text : List Char),
      control.nested = .command :: outer →
        (shellLexer.run control ((shellQuote text).map .char)).1 =
          { control with dollar := false }) ∧
    ∀ shape : CommandShape, ∃ tokens : List ShellToken, ∀ (command : BuiltCommand)
      (pieces : List CommandPiece), command.shape = shape → command.pieces = .ok pieces →
        shellTokens (renderPieces pieces ++ ['\n']) = tokens.map (pieceValues pieces).token ∧
          (shellTokens (renderPieces pieces ++ ['\n'])).map assigns =
            tokens.map assigns := by
  refine ⟨fun reading outside text => ShellReading.read_shellQuote outside text,
    fun control outer text nested => congrArg Prod.fst (nested_shellQuote text nested),
    fun shape => ⟨templateTokens (pieceTemplate 0 shape.format ++ [.char '\n']), ?_⟩⟩
  rintro command pieces rfl built
  have template : pieceTemplate 0 pieces = pieceTemplate 0 command.shape.format := by
    rw [← BuiltCommand.pieces_blank built, pieceTemplate_blank]
  have steady := command.shape.format_steady
  rw [← template] at steady ⊢
  exact steady_tokens steady

def sampleRename : TmuxMutationRequest where
  sessionId := "router"
  action := .renameSession
  target := "work".toList
  name := some "it's; reboot".toList
  destination := none
  layout := none
  amount := none

def sampleResize : TmuxMutationRequest where
  sessionId := "router"
  action := .resizePaneLeft
  target := "%3".toList
  name := none
  destination := none
  layout := none
  amount := some 7

/-- The name of the sample is one word, and no operator ends the command within it. -/
theorem sample_rename_words :
    ∃ pieces, (BuiltCommand.tmuxMutation sampleRename).pieces = .ok pieces ∧
      ∃ tokens : List ShellToken,
        shellTokens (renderPieces pieces ++ ['\n']) = tokens.map (pieceValues pieces).token ∧
          tokens.map (pieceValues pieces).token =
            ["tmux", "rename-session", "-t"].map (fun word => .word (word.toList.map .bare)) ++
              ["work", "it's; reboot"].map (fun word => .word (word.toList.map .literal)) ++
                [.newline] := by
  obtain ⟨tokens, read⟩ := shell_commands_keep_their_words.2.2
    (.tmuxMutation .renameSession true none)
  have read := (read (.tmuxMutation sampleRename) [.text "tmux rename-session -t ",
    .shellQuote "work".toList, .text " ", .shellQuote "it's; reboot".toList] rfl (by decide)).1
  exact ⟨_, by decide, tokens, read, read.symm.trans (by decide)⟩

/-- The amount of a resize stands outside all quotes. -/
theorem resize_amount_unquoted :
    ∃ pieces, (BuiltCommand.tmuxMutation sampleResize).pieces = .ok pieces ∧
      ShellToken.word [.bare '7'] ∈ shellTokens (renderPieces pieces ++ ['\n']) :=
  ⟨[.text "tmux resize-pane -t ", .shellQuote "%3".toList, .text " -L ", .number 7],
    by decide, by decide⟩

end PortMate
