import PortMate.LogPaths
import PortMate.ShellReader
import PortMate.TransferEngines

namespace PortMate

open List UInt32 Nat

/-- `trim_end_matches(['/', '\\'])`. -/
def trimSeparators (path : List Char) : List Char :=
  (path.reverse.dropWhile isAnySeparator).reverse

/-- The text before the last separator, and after it. -/
def splitLastSeparator : List Char → Option (List Char × List Char)
  | [] => none
  | c :: rest =>
    match splitLastSeparator rest with
    | some (before, after) => some (c :: before, after)
    | none => if isAnySeparator c then some ([], rest) else none

def portableFileName (path : List Char) : Option (List Char) :=
  let trimmed := trimSeparators path
  if trimmed.isEmpty then none
  else
    let withoutDrive := if hasDrivePrefix trimmed then trimmed.drop 2 else trimmed
    let name := (splitLastSeparator withoutDrive).elim withoutDrive Prod.snd
    if name.isEmpty || isDotName name || name.any isRustControl then none else some name

def remoteParentAndFileName (path : List Char) : List Char × List Char :=
  let normalized := trimSeparators path
  match splitLastSeparator normalized with
  | none => ([], (portableFileName normalized).getD [])
  | some (before, after) =>
    (if before.isEmpty then ['/'] else before, (portableFileName after).getD [])

def remoteResumePartPath (target : List Char) : List Char :=
  match rsplitOnce '/' target with
  | some (dir, name) => dir ++ '/' :: name ++ ".portmate-part".toList
  | none => target ++ ".portmate-part".toList

def modemShellPath (path : List Char) : List Char :=
  if path.head? = some '-' then shellQuote ('.' :: '/' :: path) else shellQuote path

def modemRawTtyShellCommand (command readinessToken : List Char) : List Char :=
  "\x7b portmate_stty=0; if command -v stty >/dev/null 2>&1; then stty raw -echo; portmate_stty=1; fi; printf '__PORTMATE_MODEM_%s_READY__' ".toList ++
    shellQuote readinessToken ++ "; ".toList ++ command ++
    "; portmate_modem_status=$?; if [ \"$portmate_stty\" -eq 1 ]; then stty sane; fi; if [ \"$portmate_modem_status\" -eq 0 ]; then printf '\\n__PORTMATE_MODEM_%s_DONE__\\n' ".toList ++
    shellQuote readinessToken ++ "; else printf '\\n__PORTMATE_MODEM_%s_FAIL__%s\\n' ".toList ++
    shellQuote readinessToken ++
    " \"$portmate_modem_status\"; fi; (exit \"$portmate_modem_status\"); \x7d".toList

/-- The receiver of an upload, in the directory of the path where it has one. -/
def modemReceiveCommand (receiver remotePath readinessToken : List Char) : List Char :=
  let parent := (remoteParentAndFileName remotePath).1
  if parent.isEmpty then modemRawTtyShellCommand receiver readinessToken ++ ['\r']
  else
    "mkdir -p ".toList ++ shellQuote parent ++ " && cd ".toList ++ shellQuote parent ++
      " && ".toList ++ modemRawTtyShellCommand receiver readinessToken ++ ['\r']

def modemSendCommand (sender remotePath readinessToken : List Char) : List Char :=
  modemRawTtyShellCommand (sender ++ ' ' :: modemShellPath remotePath) readinessToken ++ ['\r']

def modemRemoteCommand (protocol : TransferProtocol) (upload : Bool)
    (remotePath readinessToken : List Char) : List Char :=
  match protocol, upload with
  | .xmodem, true =>
    modemRawTtyShellCommand ("rm -f ".toList ++ modemShellPath remotePath ++ " && rx ".toList ++
      modemShellPath remotePath) readinessToken ++ ['\r']
  | .xmodem, false => modemSendCommand "sx".toList remotePath readinessToken
  | .ymodem, true => modemReceiveCommand "rb -y".toList remotePath readinessToken
  | .ymodem, false => modemSendCommand "sb".toList remotePath readinessToken
  | .zmodem, true => modemReceiveCommand "rz -y".toList remotePath readinessToken
  | .zmodem, false => modemSendCommand "sz".toList remotePath readinessToken
  | _, _ => []

/-- The assignments and the function that the commands at the end begin with. -/
def portablePathText : List Char :=
  "portable_path() \x7b case \"$1\" in -*) printf './%s\\n' \"$1\" ;; *) printf '%s\\n' \"$1\" ;; esac; \x7d; part=$(portable_path \"$part\") || exit 1; target=$(portable_path \"$target\") || exit 1; ".toList

def xmodemRemoteFinalizeCommand (remotePart remoteTarget : List Char) (sourceSize : Nat)
    (completionToken : List Char) : List Char :=
  "part=".toList ++ shellQuote remotePart ++ "; target=".toList ++ shellQuote remoteTarget ++
    "; portmate_status=0; ".toList ++ portablePathText ++
    "if command -v truncate >/dev/null 2>&1 && truncate -s ".toList ++ toDigits 10 sourceSize ++
    " \"$part\"; then :; else trim=\"$part.portmate-trim\"; dd if=\"$part\" of=\"$trim\" bs=1 count=".toList ++
    toDigits 10 sourceSize ++
    " 2>/dev/null && mv -f \"$trim\" \"$part\"; portmate_status=$?; if [ \"$portmate_status\" -ne 0 ]; then rm -f \"$trim\"; fi; fi; if [ \"$portmate_status\" -eq 0 ]; then mv -f \"$part\" \"$target\"; portmate_status=$?; fi; if [ \"$portmate_status\" -eq 0 ]; then printf '\\n__PORTMATE_XMODEM_%s_DONE__\\n' ".toList ++
    shellQuote completionToken ++ "; else printf '\\n__PORTMATE_XMODEM_%s_FAIL__%s\\n' ".toList ++
    shellQuote completionToken ++ " \"$portmate_status\"; fi".toList ++ ['\r']

def remoteModemFinalizeCommand (remotePart remoteTarget completionToken : List Char) : List Char :=
  "part=".toList ++ shellQuote remotePart ++ "; target=".toList ++ shellQuote remoteTarget ++
    "; ".toList ++ portablePathText ++
    "if mv -f \"$part\" \"$target\"; then printf '\\n__PORTMATE_MODEM_FINALIZE_%s_DONE__\\n' ".toList ++
    shellQuote completionToken ++
    "; else portmate_status=$?; printf '\\n__PORTMATE_MODEM_FINALIZE_%s_FAIL__%s\\n' ".toList ++
    shellQuote completionToken ++ " \"$portmate_status\"; fi".toList ++ ['\r']

/-- `Uuid::new_v4().simple()`: the text of a random id. -/
structure SimpleUuid where
  text : List Char
  hex : ∀ c ∈ text, (hexDigit? c).isSome = true

section Templates

def chars (text : List Char) : List ShellSymbol := text.map .char

def rawTtyTemplate (command : List ShellSymbol) : List ShellSymbol :=
  chars "\x7b portmate_stty=0; if command -v stty >/dev/null 2>&1; then stty raw -echo; portmate_stty=1; fi; printf '__PORTMATE_MODEM_%s_READY__' ".toList ++
    .quoted 2 :: chars "; ".toList ++ command ++
    chars "; portmate_modem_status=$?; if [ \"$portmate_stty\" -eq 1 ]; then stty sane; fi; if [ \"$portmate_modem_status\" -eq 0 ]; then printf '\\n__PORTMATE_MODEM_%s_DONE__\\n' ".toList ++
    .quoted 2 :: chars "; else printf '\\n__PORTMATE_MODEM_%s_FAIL__%s\\n' ".toList ++
    .quoted 2 :: chars " \"$portmate_modem_status\"; fi; (exit \"$portmate_modem_status\"); \x7d".toList

def receiveTemplate (receiver : List Char) (inDirectory : Bool) : List ShellSymbol :=
  if inDirectory then
    chars "mkdir -p ".toList ++ .quoted 1 :: chars " && cd ".toList ++
      .quoted 1 :: chars " && ".toList ++ rawTtyTemplate (chars receiver)
  else rawTtyTemplate (chars receiver)

def sendTemplate (sender : List Char) : List ShellSymbol :=
  rawTtyTemplate (chars sender ++ [.char ' ', .quoted 0])

/-- The command line of a start, with slots for the path, its directory and the token. -/
def startTemplate (protocol : TransferProtocol) (upload inDirectory : Bool) : List ShellSymbol :=
  match protocol, upload with
  | .xmodem, true =>
    rawTtyTemplate (chars "rm -f ".toList ++ .quoted 0 :: chars " && rx ".toList ++ [.quoted 0])
  | .xmodem, false => sendTemplate "sx".toList
  | .ymodem, true => receiveTemplate "rb -y".toList inDirectory
  | .ymodem, false => sendTemplate "sb".toList
  | .zmodem, true => receiveTemplate "rz -y".toList inDirectory
  | .zmodem, false => sendTemplate "sz".toList
  | _, _ => []

/-- The command line of an end, with slots for the two paths, the size and the token. -/
def finalizeTemplate (protocol : TransferProtocol) : List ShellSymbol :=
  chars "part=".toList ++ .quoted 0 :: chars "; target=".toList ++
    .quoted 1 :: match protocol with
    | .xmodem =>
      chars "; portmate_status=0; ".toList ++ chars portablePathText ++
        chars "if command -v truncate >/dev/null 2>&1 && truncate -s ".toList ++
        .number 0 :: chars " \"$part\"; then :; else trim=\"$part.portmate-trim\"; dd if=\"$part\" of=\"$trim\" bs=1 count=".toList ++
        .number 0 :: chars " 2>/dev/null && mv -f \"$trim\" \"$part\"; portmate_status=$?; if [ \"$portmate_status\" -ne 0 ]; then rm -f \"$trim\"; fi; fi; if [ \"$portmate_status\" -eq 0 ]; then mv -f \"$part\" \"$target\"; portmate_status=$?; fi; if [ \"$portmate_status\" -eq 0 ]; then printf '\\n__PORTMATE_XMODEM_%s_DONE__\\n' ".toList ++
        .quoted 2 :: chars "; else printf '\\n__PORTMATE_XMODEM_%s_FAIL__%s\\n' ".toList ++
        .quoted 2 :: chars " \"$portmate_status\"; fi".toList
    | _ =>
      chars "; ".toList ++ chars portablePathText ++
        chars "if mv -f \"$part\" \"$target\"; then printf '\\n__PORTMATE_MODEM_FINALIZE_%s_DONE__\\n' ".toList ++
        .quoted 2 :: chars "; else portmate_status=$?; printf '\\n__PORTMATE_MODEM_FINALIZE_%s_FAIL__%s\\n' ".toList ++
        .quoted 2 :: chars " \"$portmate_status\"; fi".toList

end Templates

/-- A text that is typed, with the command line that it is meant to be. -/
structure TypedCommand where
  text : List Char
  template : List ShellSymbol
  values : ShellValues

/-- The text is one line without control characters, and the shell has the tokens of the template
with the values in their slots. -/
def TypedCommand.OneLine (command : TypedCommand) : Prop :=
  ∃ line, command.text = line ++ ['\r'] ∧ (∀ c ∈ line, isRustControl c = false) ∧
    shellTokens (line ++ ['\n']) =
      (templateTokens (command.template ++ [.char '\n'])).map command.values.token

def pathValues (first second token : List Char) (size : Nat) : ShellValues where
  quoted slot := if slot = 0 then first else if slot = 1 then second else token
  number _ := size

section Values

variable (first second token : List Char) (size : Nat)

@[simp] theorem pathValues_first : (pathValues first second token size).quoted 0 = first := rfl

@[simp] theorem pathValues_second : (pathValues first second token size).quoted 1 = second := rfl

@[simp] theorem pathValues_token : (pathValues first second token size).quoted 2 = token := rfl

@[simp] theorem pathValues_size : (pathValues first second token size).number 0 = size := rfl

end Values

def startCommand (protocol : TransferProtocol) (upload : Bool) (remotePath : List Char)
    (token : SimpleUuid) : TypedCommand :=
  let parent := (remoteParentAndFileName remotePath).1
  { text := modemRemoteCommand protocol upload remotePath token.text
    template := startTemplate protocol upload (!parent.isEmpty)
    values := pathValues (if remotePath.head? = some '-' then '.' :: '/' :: remotePath
      else remotePath) parent token.text 0 }

def finalizeCommand (protocol : TransferProtocol) (target : List Char) (size : Nat)
    (token : SimpleUuid) : TypedCommand :=
  let part := remoteResumePartPath target
  { text := match protocol with
      | .xmodem => xmodemRemoteFinalizeCommand part target size token.text
      | _ => remoteModemFinalizeCommand part target token.text
    template := finalizeTemplate protocol
    values := pathValues part target token.text size }

def ModemDirection.remotePath : ModemDirection → List Char
  | upload _ remoteDestination => remoteDestination.toList
  | download remoteSource _ => remoteSource.toList

/-- Everything that a transfer types: an upload starts the receiver on the part and ends with the
move of the part to its target. -/
def modemTypedCommands (protocol : TransferProtocol) (direction : ModemDirection) (size : Nat)
    (start completion : SimpleUuid) : List TypedCommand :=
  match direction with
  | .upload _ remoteDestination =>
    [startCommand protocol true (remoteResumePartPath remoteDestination.toList) start,
      finalizeCommand protocol remoteDestination.toList size completion]
  | .download remoteSource _ => [startCommand protocol false remoteSource.toList start]

section Lines

variable (values : ShellValues)

theorem fill_nil : values.fill [] = [] := rfl

theorem fill_append (first second : List ShellSymbol) :
    values.fill (first ++ second) = values.fill first ++ values.fill second :=
  flatMap_append

theorem fill_chars (text : List Char) : values.fill (chars text) = text := by
  induction text with
  | nil => rfl
  | cons c text ih => exact congrArg (c :: ·) ih

theorem fill_cons (symbol : ShellSymbol) (rest : List ShellSymbol) :
    values.fill (symbol :: rest) = values.symbol symbol ++ values.fill rest :=
  flatMap_cons

theorem fill_char (c : Char) (rest : List ShellSymbol) :
    values.fill (.char c :: rest) = c :: values.fill rest := by
  rw [fill_cons, ShellValues.symbol, singleton_append]

theorem fill_quoted (slot : Nat) (rest : List ShellSymbol) :
    values.fill (.quoted slot :: rest) = shellQuote (values.quoted slot) ++ values.fill rest := by
  rw [fill_cons, ShellValues.symbol]

theorem fill_number (slot : Nat) (rest : List ShellSymbol) :
    values.fill (.number slot :: rest) =
      toDigits 10 (values.number slot) ++ values.fill rest := by
  rw [fill_cons, ShellValues.symbol]

theorem modemShellPath_eq (path : List Char) :
    modemShellPath path =
      shellQuote (if path.head? = some '-' then '.' :: '/' :: path else path) := by
  unfold modemShellPath
  split <;> rfl

theorem rawTty_fill (command : List ShellSymbol) :
    values.fill (rawTtyTemplate command) =
      modemRawTtyShellCommand (values.fill command) (values.quoted 2) := by
  unfold rawTtyTemplate modemRawTtyShellCommand
  simp only [-String.reduceToList, fill_append, fill_chars, fill_quoted, append_assoc, cons_append]

/-- The path as a word of a command that could take it for an option. -/
def dashedPath (path : List Char) : List Char := if path.head? = some '-' then '.' :: '/' :: path else path

theorem modemRemoteCommand_text {protocol : TransferProtocol}
    (modem : protocol ∈ [.xmodem, .ymodem, .zmodem]) (upload : Bool)
    (remotePath token : List Char) :
    modemRemoteCommand protocol upload remotePath token =
      (pathValues (dashedPath remotePath) (remoteParentAndFileName remotePath).1 token 0).fill
        (startTemplate protocol upload (!(remoteParentAndFileName remotePath).1.isEmpty)) ++
          ['\r'] := by
  have sends : ∀ sender second : List Char,
      modemSendCommand sender remotePath token =
        (pathValues (dashedPath remotePath) second token 0).fill (sendTemplate sender) ++
          ['\r'] := by
    intro sender second
    unfold sendTemplate modemSendCommand
    rw [rawTty_fill, fill_append, fill_chars, fill_char, fill_quoted, fill_nil, append_nil,
      modemShellPath_eq]
    rfl
  have receives : ∀ (receiver first : List Char),
      modemReceiveCommand receiver remotePath token =
        (pathValues first (remoteParentAndFileName remotePath).1 token 0).fill
          (receiveTemplate receiver (!(remoteParentAndFileName remotePath).1.isEmpty)) ++
            ['\r'] := by
    intro receiver first
    unfold modemReceiveCommand receiveTemplate
    simp only
    cases empty : (remoteParentAndFileName remotePath).1.isEmpty with
    | true =>
      simp only [-String.reduceToList, Bool.not_true, if_true, Bool.false_eq_true, if_false, rawTty_fill, fill_chars]
      rfl
    | false =>
      simp only [-String.reduceToList, Bool.not_false, if_true, Bool.false_eq_true, if_false, fill_append, fill_quoted,
        rawTty_fill, fill_chars, cons_append, append_assoc]
      rfl
  simp only [-String.reduceToList, mem_cons, not_mem_nil, or_false] at modem
  obtain rfl | rfl | rfl := modem <;> cases upload
  · exact sends _ _
  · simp only [-String.reduceToList, modemRemoteCommand, startTemplate, rawTty_fill, fill_append, fill_chars, fill_quoted,
      fill_nil, modemShellPath_eq, pathValues_first, pathValues_token, dashedPath, append_assoc,
      append_nil]
  · exact sends _ _
  · exact receives _ _
  · exact sends _ _
  · exact receives _ _

theorem startCommand_text {protocol : TransferProtocol}
    (modem : protocol ∈ [.xmodem, .ymodem, .zmodem]) (upload : Bool) (remotePath : List Char)
    (token : SimpleUuid) :
    (startCommand protocol upload remotePath token).text =
      (startCommand protocol upload remotePath token).values.fill
        (startCommand protocol upload remotePath token).template ++ ['\r'] :=
  modemRemoteCommand_text modem upload remotePath token.text

theorem finalizeTemplate_other {protocol : TransferProtocol} (other : protocol ≠ .xmodem) :
    finalizeTemplate protocol = finalizeTemplate .ymodem := by
  cases protocol with
  | xmodem => exact absurd rfl other
  | sftp | scp | tftp | ymodem | zmodem => rfl

theorem xmodemRemoteFinalizeCommand_text (part target : List Char) (size : Nat)
    (token : List Char) :
    xmodemRemoteFinalizeCommand part target size token =
      (pathValues part target token size).fill (finalizeTemplate .xmodem) ++ ['\r'] := by
  unfold finalizeTemplate xmodemRemoteFinalizeCommand
  simp only [-String.reduceToList, fill_append, fill_chars, fill_quoted, fill_number]
  rw [pathValues_first, pathValues_second, pathValues_token, pathValues_size]
  simp only [-String.reduceToList, append_assoc]

theorem remoteModemFinalizeCommand_text (part target : List Char) (size : Nat)
    (token : List Char) :
    remoteModemFinalizeCommand part target token =
      (pathValues part target token size).fill (finalizeTemplate .ymodem) ++ ['\r'] := by
  unfold finalizeTemplate remoteModemFinalizeCommand
  simp only [-String.reduceToList, fill_append, fill_chars, fill_quoted]
  rw [pathValues_first, pathValues_second, pathValues_token]
  simp only [-String.reduceToList, append_assoc]

variable (protocol : TransferProtocol)

theorem finalizeCommand_text (target : List Char) (size : Nat) (token : SimpleUuid) :
    (finalizeCommand protocol target size token).text =
      (finalizeCommand protocol target size token).values.fill
        (finalizeCommand protocol target size token).template ++ ['\r'] := by
  by_cases same : protocol = .xmodem
  · subst same
    exact xmodemRemoteFinalizeCommand_text _ target size token.text
  · have text : (finalizeCommand protocol target size token).text =
        remoteModemFinalizeCommand (remoteResumePartPath target) target token.text := by
      cases protocol with
      | xmodem => exact absurd rfl same
      | sftp | scp | tftp | ymodem | zmodem => rfl
    rw [text, remoteModemFinalizeCommand_text _ target size]
    simp only [finalizeCommand, finalizeTemplate_other same]

/-- The slots of a template are open, and what it says is free of control characters. -/
def CleanTemplate (template : List ShellSymbol) : Prop :=
  shellLexer.StepsMeet OpenSlot .start (template ++ [.char '\n']) ∧
    template.all (fun symbol => match symbol with
      | .char c => !isRustControl c
      | _ => true) = true

set_option maxRecDepth 20000 in
theorem startTemplate_clean (upload inDirectory : Bool) :
    CleanTemplate (startTemplate protocol upload inDirectory) := by
  unfold CleanTemplate
  cases protocol <;> cases upload <;> cases inDirectory <;>
    simp only [-String.reduceToList, startTemplate, receiveTemplate, sendTemplate, rawTtyTemplate] <;>
    (repeat rw [String.toList_ofList]) <;>
    decide

set_option maxRecDepth 20000 in
theorem finalizeTemplate_clean : CleanTemplate (finalizeTemplate protocol) := by
  have xmodem : CleanTemplate (finalizeTemplate .xmodem) := by
    unfold CleanTemplate
    unfold finalizeTemplate portablePathText
    repeat rw [String.toList_ofList]
    decide +kernel
  have others : CleanTemplate (finalizeTemplate .ymodem) := by
    unfold CleanTemplate
    unfold finalizeTemplate portablePathText
    repeat rw [String.toList_ofList]
    decide
  by_cases same : protocol = .xmodem
  · rw [same]
    exact xmodem
  · rw [finalizeTemplate_other same]
    exact others

def Printable (text : List Char) : Prop := ∀ c ∈ text, isRustControl c = false

theorem printable_append {first second : List Char} :
    Printable (first ++ second) ↔ Printable first ∧ Printable second :=
  forall_mem_append

theorem printable_of_all {text : List Char} (all : text.all (fun c => !isRustControl c) = true) :
    Printable text := by
  intro c mem
  simpa using all_eq_true.mp all c mem

theorem shellQuote_printable {text : List Char} :
    Printable (shellQuote text) ↔ Printable text := by
  constructor
  · intro quoted c mem
    by_cases quote : c = '\''
    · subst quote
      decide
    · refine quoted c (mem_append_left _ (mem_cons_of_mem _ ?_))
      refine mem_flatMap.mpr ⟨c, mem, ?_⟩
      rw [if_neg quote]
      exact mem_singleton_self c
  · intro plain c mem
    have marks : ∀ mark ∈ ['\'', '\\', '\'', '\''], isRustControl mark = false :=
      fun mark inside => Bool.not_inj (all_eq_true.mp
        (show ['\'', '\\', '\'', '\''].all (fun mark => !isRustControl mark) = true from rfl)
        mark inside)
    obtain mem | mem := mem_append.mp mem
    · obtain rfl | mem := mem_cons.mp mem
      · decide
      · obtain ⟨original, inside, mem⟩ := mem_flatMap.mp mem
        split at mem
        · exact marks c mem
        · rw [mem_singleton.mp mem]
          exact plain original inside
    · rw [mem_singleton.mp mem]
      decide

theorem not_control {c : Char} (low : 32 ≤ c.toNat) (high : c.toNat < 127) :
    isRustControl c = false := by
  unfold isRustControl
  rw [Bool.or_eq_false_iff, Bool.and_eq_false_iff, decide_eq_false_iff_not,
    decide_eq_false_iff_not]
  refine ⟨fun small => ?_, .inl fun large => ?_⟩
  · have := le_iff_toNat_le.mp small
    change c.toNat ≤ 31 at this
    omega
  · have := le_iff_toNat_le.mp large
    change 127 ≤ c.toNat at this
    omega

theorem char_bounds {low high c : Char} (inside : (low ≤ c && c ≤ high) = true) :
    low.toNat ≤ c.toNat ∧ c.toNat ≤ high.toNat := by
  rw [Bool.and_eq_true] at inside
  exact ⟨le_iff_toNat_le.mp (of_decide_eq_true inside.1),
    le_iff_toNat_le.mp (of_decide_eq_true inside.2)⟩

theorem digits_printable (n : Nat) : Printable (toDigits 10 n) := by
  intro c mem
  have digit : ('0' ≤ c && c ≤ '9') = true := toDigits_isDigit mem
  obtain ⟨low, high⟩ := char_bounds digit
  exact not_control (le_trans (by decide) low) (lt_of_le_of_lt high (by decide))

theorem fill_printable {template : List ShellSymbol} (clean : CleanTemplate template)
    (values : ShellValues) :
    Printable (values.fill template) ↔
      ∀ slot, .quoted slot ∈ template → Printable (values.quoted slot) := by
  constructor
  · intro filled slot mem
    rw [← shellQuote_printable]
    intro c inside
    exact filled c (mem_flatMap.mpr ⟨.quoted slot, mem, inside⟩)
  · intro slots c mem
    obtain ⟨symbol, inside, mem⟩ := mem_flatMap.mp mem
    cases symbol with
    | char other =>
      have plain := all_eq_true.mp clean.2 (.char other) inside
      rw [mem_singleton.mp mem]
      simpa using plain
    | quoted slot => exact shellQuote_printable.mpr (slots slot inside) c mem
    | number slot => exact digits_printable _ c mem

theorem oneLine_iff {command : TypedCommand}
    (text : command.text = command.values.fill command.template ++ ['\r'])
    (clean : CleanTemplate command.template) :
    command.OneLine ↔
      ∀ slot, .quoted slot ∈ command.template → Printable (command.values.quoted slot) := by
  rw [← fill_printable clean]
  constructor
  · rintro ⟨line, same, printable, _⟩
    rw [text] at same
    rw [(append_inj' same rfl).1]
    exact printable
  · intro printable
    refine ⟨_, text, printable, ?_⟩
    have filled := tokens_fill command.values clean.1
    rw [fill_append, fill_char, fill_nil] at filled
    exact filled

theorem resumePart_eq (target : List Char) :
    remoteResumePartPath target = target ++ ".portmate-part".toList := by
  unfold remoteResumePartPath
  split
  next dir name split => rw [rsplitOnce_some split, append_assoc, cons_append]
  next => rfl

theorem splitLastSeparator_some {path before after : List Char}
    (found : splitLastSeparator path = some (before, after)) :
    ∃ separator, path = before ++ separator :: after := by
  induction path generalizing before with
  | nil => cases found
  | cons c rest ih =>
    rw [splitLastSeparator] at found
    split at found
    next split =>
      cases found
      obtain ⟨separator, rfl⟩ := ih split
      exact ⟨separator, rfl⟩
    next =>
      split at found
      · cases found
        exact ⟨c, rfl⟩
      · cases found

theorem remoteParent_printable {path : List Char} (printable : Printable path) :
    Printable (remoteParentAndFileName path).1 := by
  have trimmed : Printable (trimSeparators path) := by
    intro c mem
    have inner := (dropWhile_sublist _).subset (mem_reverse.mp mem)
    exact printable c (mem_reverse.mp inner)
  unfold remoteParentAndFileName
  simp only
  split
  next =>
    intro c mem
    cases mem
  next before after found =>
    obtain ⟨separator, split⟩ := splitLastSeparator_some found
    rw [split] at trimmed
    simp only
    split
    · intro c mem
      rw [mem_singleton.mp mem]
      decide
    · exact (printable_append.mp trimmed).1

theorem SimpleUuid.printable (token : SimpleUuid) : Printable token.text := by
  intro c mem
  have hex := token.hex c mem
  unfold hexDigit? at hex
  split at hex
  next inside =>
    obtain ⟨low, high⟩ := char_bounds inside
    exact not_control (le_trans (by decide) low) (lt_of_le_of_lt high (by decide))
  next =>
    split at hex
    next inside =>
      obtain ⟨low, high⟩ := char_bounds inside
      exact not_control (le_trans (by decide) low) (lt_of_le_of_lt high (by decide))
    next =>
      split at hex
      next inside =>
        obtain ⟨low, high⟩ := char_bounds inside
        exact not_control (le_trans (by decide) low) (lt_of_le_of_lt high (by decide))
      next => cases hex

theorem startValues_printable {path : List Char} (printable : Printable path) (upload : Bool)
    (protocol : TransferProtocol) (token : SimpleUuid) (slot : Nat) :
    Printable ((startCommand protocol upload path token).values.quoted slot) := by
  simp only [startCommand, pathValues]
  split
  · split
    · have dots : Printable ['.', '/'] := printable_of_all rfl
      exact printable_append.mpr ⟨dots, printable⟩
    · exact printable
  · split
    · exact remoteParent_printable printable
    · exact token.printable

theorem path_in_template {protocol : TransferProtocol}
    (modem : protocol ∈ [.xmodem, .ymodem, .zmodem]) (inDirectory : Bool) :
    .quoted 0 ∈ startTemplate protocol false inDirectory := by
  have sends : ∀ sender, .quoted 0 ∈ sendTemplate sender := by
    intro sender
    have last : ShellSymbol.quoted 0 ∈ chars sender ++ [.char ' ', .quoted 0] := by simp
    exact mem_append_left _ (mem_append_left _ (mem_append_left _
      (mem_append_right _ last)))
  simp only [mem_cons, not_mem_nil, or_false] at modem
  obtain rfl | rfl | rfl := modem <;> exact sends _

/-- A transfer types lines of its own, one for each of its commands, exactly where its remote path
is free of control characters; the shell has the same words and operators for all paths, with the
path words in their places. -/
theorem modem_commands_one_line {protocol : TransferProtocol}
    (modem : protocol ∈ [.xmodem, .ymodem, .zmodem]) (direction : ModemDirection) (size : Nat)
    (start completion : SimpleUuid) :
    (∀ command ∈ modemTypedCommands protocol direction size start completion, command.OneLine) ↔
      ∀ c ∈ direction.remotePath, isRustControl c = false := by
  have starts : ∀ upload path, (startCommand protocol upload path start).OneLine ↔ _ :=
    fun upload path => oneLine_iff (startCommand_text modem upload path start)
      (startTemplate_clean protocol upload _)
  have ends : ∀ target, (finalizeCommand protocol target size completion).OneLine ↔ _ :=
    fun target => oneLine_iff (finalizeCommand_text protocol target size completion)
      (finalizeTemplate_clean protocol)
  cases direction with
  | upload _ target =>
    constructor
    · intro lines
      have last := (ends target.toList).mp (lines _ (mem_cons_of_mem _ mem_cons_self))
      exact last 1 (by
        unfold finalizeCommand finalizeTemplate
        exact mem_append_right _ mem_cons_self)
    · intro printable command mem
      have part : Printable (remoteResumePartPath target.toList) := by
        rw [resumePart_eq, String.toList_ofList]
        exact printable_append.mpr ⟨printable, printable_of_all rfl⟩
      simp only [modemTypedCommands, mem_cons, not_mem_nil, or_false] at mem
      obtain rfl | rfl := mem
      · exact (starts true _).mpr fun slot _ => startValues_printable part true protocol start slot
      · refine (ends target.toList).mpr fun slot _ => ?_
        simp only [finalizeCommand, pathValues]
        split
        · exact part
        · split
          · exact printable
          · exact completion.printable
  | download source _ =>
    constructor
    · intro lines
      have first := (starts false source.toList).mp (lines _ mem_cons_self) 0
        (path_in_template modem _)
      simp only [startCommand, pathValues_first] at first
      split at first
      · exact fun c mem => first c (mem_cons_of_mem _ (mem_cons_of_mem _ mem))
      · exact first
    · intro printable command mem
      rw [mem_singleton.mp mem]
      exact (starts false _).mpr fun slot _ =>
        startValues_printable printable false protocol start slot

end Lines

/-- A path that ends the line that is being typed and types another. -/
def sampleInterrupt : String := "/tmp/a\x03reboot\rb"

def sampleToken : SimpleUuid :=
  ⟨['0', 'f'], fun c mem => all_eq_true.mp
    (show ['0', 'f'].all (fun c => (hexDigit? c).isSome) = true from rfl) c mem⟩

theorem interrupt_not_one_line :
    (modemDirection (fun _ _ => .ok true)
        ⟨"s1", .xmodem, "/tmp/a.bin", "remote:" ++ sampleInterrupt⟩).2 =
      .ok (.upload "/tmp/a.bin" sampleInterrupt) ∧
    ¬ ∀ command ∈ modemTypedCommands .xmodem (.upload "/tmp/a.bin" sampleInterrupt) 1 sampleToken
      sampleToken, command.OneLine := by
  refine ⟨by decide +kernel, fun lines => ?_⟩
  have last := lines _ (mem_cons_of_mem _ mem_cons_self)
  have slots := (oneLine_iff (finalizeCommand_text .xmodem sampleInterrupt.toList 1 sampleToken)
    (finalizeTemplate_clean .xmodem)).mp last
  have path := slots 1 (by
    unfold finalizeCommand finalizeTemplate
    exact mem_append_right _ mem_cons_self)
  exact absurd (path '\x03' (by decide)) (by decide)

theorem sample_modem_one_line :
    modemTypedCommands .zmodem (.download "-a'b" "/tmp") 0 sampleToken sampleToken ≠ [] ∧
      ∀ command ∈ modemTypedCommands .zmodem (.download "-a'b" "/tmp") 0 sampleToken sampleToken,
        command.OneLine := by
  refine ⟨cons_ne_nil _ _, (modem_commands_one_line (by decide) (.download "-a'b" "/tmp") 0
    sampleToken sampleToken).mpr fun c mem => ?_⟩
  have plain : ((ModemDirection.download "-a'b" "/tmp").remotePath.all
      fun c => !isRustControl c) = true := by decide
  simpa using all_eq_true.mp plain c mem

end PortMate
