import PortMate.RustText
import PortMate.Transducer

namespace PortMate

open List Nat Transducer

/-- A character of a word as it stands, quoted, in double quotes or in a substitution; and, in a
template, what a slot is filled with. -/
inductive WordPart
  | bare (c : Char)
  | literal (c : Char)
  | double (c : Char)
  | inner (c : Char)
  | quoted (slot : Nat)
  | number (slot : Nat)
  deriving DecidableEq

inductive ShellToken
  | word (parts : List WordPart)
  | ioNumber (parts : List WordPart)
  | operator (text : List Char)
  | newline
  deriving DecidableEq

inductive ShellMode
  | plain | escaped | single | double | doubleEscaped | comment
  deriving DecidableEq

inductive ShellFrame
  | single | double | escaped | command | brace | backquote
  deriving DecidableEq

/-- What the reader goes by; `digits` says of an open word whether it is all digits. -/
structure ShellControl where
  mode : ShellMode
  nested : List ShellFrame
  dollar : Bool
  operator : List Char
  digits : Option Bool
  deriving DecidableEq

inductive ShellAct
  | begin
  | add (part : WordPart)
  | endWord (number : Bool)
  | operator (text : List Char)
  | newline
  deriving DecidableEq

open ShellAct

/-- A character of a command line, or a slot for a word in single quotes or for a number. -/
inductive ShellSymbol
  | char (c : Char)
  | quoted (slot : Nat)
  | number (slot : Nat)
  deriving DecidableEq

def isShellOperator (text : List Char) : Bool :=
  text ∈ [['&'], ['|'], [';'], ['<'], ['>'], ['('], [')'], ['&', '&'], ['|', '|'], [';', ';'],
    ['<', '<'], ['>', '>'], ['<', '&'], ['>', '&'], ['<', '>'], ['<', '<', '-'], ['>', '|']]

namespace ShellControl

def start : ShellControl := ⟨.plain, [], false, [], none⟩

/-- A character outside all quotes, with no operator before it. -/
def plainChar (control : ShellControl) (c : Char) : ShellControl × List ShellAct :=
  if control.dollar && c = '(' then
    ({ control with nested := [.command], dollar := false }, [.add (.inner c)])
  else if control.dollar && c = '\x7b' then
    ({ control with nested := [.brace], dollar := false }, [.add (.inner c)])
  else if c = '\\' then ({ control with mode := .escaped, dollar := false }, [])
  else if c = '\'' then
    ({ control with mode := .single, dollar := false, digits := some false }, [.begin])
  else if c = '"' then
    ({ control with mode := .double, dollar := false, digits := some false }, [.begin])
  else if c = '\x60' then
    ({ control with nested := [.backquote], dollar := false, digits := some false },
      [.add (.inner c)])
  else if c = '$' then
    ({ control with dollar := true, digits := some false }, [.add (.bare c)])
  else if c = '\n' then
    ({ control with dollar := false, digits := none }, [.endWord false, .newline])
  else if c = ' ' || c = '\t' then
    ({ control with dollar := false, digits := none }, [.endWord false])
  else if isShellOperator [c] then
    ({ control with dollar := false, operator := [c], digits := none },
      [.endWord (control.digits = some true && (c = '<' || c = '>'))])
  else if c = '#' && control.digits.isNone then
    ({ control with mode := .comment, dollar := false }, [])
  else
    ({ control with dollar := false, digits := some (control.digits.getD true && c.isDigit) },
      [.add (.bare c)])

/-- An operator takes as many characters as make one. -/
def plain (control : ShellControl) (c : Char) : ShellControl × List ShellAct :=
  if control.operator.isEmpty then control.plainChar c
  else if isShellOperator (control.operator ++ [c]) then
    ({ control with operator := control.operator ++ [c] }, [])
  else
    let next := { control with operator := [] }.plainChar c
    (next.1, .operator control.operator :: next.2)

/-- What is open after a character of a substitution. -/
def nestedAfter (dollar : Bool) (c : Char) : List ShellFrame → List ShellFrame
  | [] => []
  | .single :: outer => if c = '\'' then outer else .single :: outer
  | .escaped :: outer => outer
  | .double :: outer =>
    if c = '"' then outer
    else if c = '\\' then .escaped :: .double :: outer
    else if c = '\x60' then .backquote :: .double :: outer
    else if dollar && c = '(' then .command :: .double :: outer
    else if dollar && c = '\x7b' then .brace :: .double :: outer
    else .double :: outer
  | .backquote :: outer =>
    if c = '\x60' then outer
    else if c = '\\' then .escaped :: .backquote :: outer
    else .backquote :: outer
  | frame :: outer =>
    if c = (if frame = .brace then '\x7d' else ')') then outer
    else if c = '\'' then .single :: frame :: outer
    else if c = '"' then .double :: frame :: outer
    else if c = '\\' then .escaped :: frame :: outer
    else if c = '\x60' then .backquote :: frame :: outer
    else if c = '(' then .command :: frame :: outer
    else if dollar && c = '\x7b' then .brace :: frame :: outer
    else frame :: outer

def double (control : ShellControl) (c : Char) : ShellControl × List ShellAct :=
  if control.dollar && c = '(' then
    ({ control with nested := [.command], dollar := false }, [.add (.inner c)])
  else if control.dollar && c = '\x7b' then
    ({ control with nested := [.brace], dollar := false }, [.add (.inner c)])
  else if c = '"' then ({ control with mode := .plain, dollar := false }, [])
  else if c = '\\' then ({ control with mode := .doubleEscaped, dollar := false }, [])
  else if c = '\x60' then
    ({ control with nested := [.backquote], dollar := false }, [.add (.inner c)])
  else ({ control with dollar := c = '$' }, [.add (.double c)])

def char (control : ShellControl) (c : Char) : ShellControl × List ShellAct :=
  if control.nested.isEmpty then
    match control.mode with
    | .plain => control.plain c
    | .escaped =>
      if c = '\n' then ({ control with mode := .plain }, [])
      else ({ control with mode := .plain, digits := some false }, [.add (.literal c)])
    | .single =>
      if c = '\'' then ({ control with mode := .plain }, []) else (control, [.add (.literal c)])
    | .double => control.double c
    | .doubleEscaped =>
      if c = '\n' then ({ control with mode := .double }, [])
      else if c = '$' || c = '"' || c = '\\' || c = '\x60' then
        ({ control with mode := .double }, [.add (.literal c)])
      else ({ control with mode := .double }, [.add (.literal '\\'), .add (.literal c)])
    | .comment =>
      if c = '\n' then { control with mode := .plain }.plain c else (control, [])
  else
    ({ control with nested := nestedAfter control.dollar c control.nested, dollar := c = '$' },
      [.add (.inner c)])

def symbol (control : ShellControl) : ShellSymbol → ShellControl × List ShellAct
  | .char c => control.char c
  | .quoted slot => ({ control with digits := some false }, [.add (.quoted slot)])
  | .number slot =>
    ({ control with digits := some (control.digits.getD true) }, [.add (.number slot)])

end ShellControl

def shellLexer : Transducer ShellControl ShellSymbol ShellAct where
  step control symbol := control.symbol symbol

@[simp] theorem shellLexer_char (control : ShellControl) (c : Char) :
    shellLexer.step control (.char c) = control.char c := rfl

/-- The words put together; the state is the word that is open. -/
def shellGatherer : Transducer (Option (List WordPart)) ShellAct ShellToken where
  step word act :=
    match act with
    | .begin => (some (word.getD []), [])
    | .add part => (some (word.getD [] ++ [part]), [])
    | .endWord number =>
      (none, word.toList.map fun parts => if number then .ioNumber parts else .word parts)
    | .operator text => (word, [.operator text])
    | .newline => (word, [.newline])

def templateTokens (template : List ShellSymbol) : List ShellToken :=
  (shellGatherer.run none (shellLexer.run .start template).2).2

/-- The tokens of a text, those that are complete at its end. -/
def shellTokens (text : List Char) : List ShellToken := templateTokens (text.map .char)

/-- A text in single quotes, with its own quotes taken out of them. -/
def shellQuote (text : List Char) : List Char :=
  '\'' :: text.flatMap (fun c => if c = '\'' then ['\'', '\\', '\'', '\''] else [c]) ++ ['\'']

structure ShellValues where
  quoted : Nat → List Char
  number : Nat → Nat

namespace ShellValues

variable (values : ShellValues)

def symbol : ShellSymbol → List Char
  | .char c => [c]
  | .quoted slot => shellQuote (values.quoted slot)
  | .number slot => toDigits 10 (values.number slot)

def fill (template : List ShellSymbol) : List Char := template.flatMap values.symbol

def part : WordPart → List WordPart
  | .quoted slot => (values.quoted slot).map .literal
  | .number slot => (toDigits 10 (values.number slot)).map .bare
  | part => [part]

def token : ShellToken → ShellToken
  | .word parts => .word (parts.flatMap values.part)
  | .ioNumber parts => .ioNumber (parts.flatMap values.part)
  | token => token

end ShellValues

section Filling

variable {control : ShellControl} {values : ShellValues}

def ShellAct.isWhole : ShellAct → Bool
  | .add (.quoted _) => false
  | .add (.number _) => false
  | _ => true

theorem whole_ite {condition : Prop} [Decidable condition]
    {one other : ShellControl × List ShellAct} (one_whole : one.2.all isWhole = true)
    (other_whole : other.2.all isWhole = true) :
    (if condition then one else other).2.all isWhole = true := by
  split
  · exact one_whole
  · exact other_whole

theorem plainChar_whole (control : ShellControl) (c : Char) :
    (control.plainChar c).2.all isWhole = true := by
  unfold ShellControl.plainChar
  repeat' apply whole_ite
  all_goals rfl

theorem plain_whole (control : ShellControl) (c : Char) :
    (control.plain c).2.all isWhole = true := by
  unfold ShellControl.plain
  refine whole_ite (plainChar_whole control c) (whole_ite rfl ?_)
  exact plainChar_whole _ c

theorem double_whole (control : ShellControl) (c : Char) :
    (control.double c).2.all isWhole = true := by
  unfold ShellControl.double
  repeat' apply whole_ite
  all_goals rfl

theorem char_whole (control : ShellControl) (c : Char) :
    (control.char c).2.all isWhole = true := by
  unfold ShellControl.char
  refine whole_ite ?_ rfl
  split
  · exact plain_whole control c
  · exact whole_ite rfl rfl
  · exact whole_ite rfl rfl
  · exact double_whole control c
  · exact whole_ite rfl (whole_ite rfl rfl)
  · exact whole_ite (plain_whole _ c) rfl

/-- What a word that is open and the tokens become with the slots filled. -/
def ShellValues.gathered (values : ShellValues)
    (result : Option (List WordPart) × List ShellToken) :
    Option (List WordPart) × List ShellToken :=
  (result.1.map fun parts => parts.flatMap values.part, result.2.map values.token)

theorem gather_whole {act : ShellAct} (whole : act.isWhole = true)
    (word : Option (List WordPart)) :
    shellGatherer.step (word.map fun parts => parts.flatMap values.part) act =
      values.gathered (shellGatherer.step word act) := by
  cases act with
  | begin => cases word <;> rfl
  | add part =>
    have kept : values.part part = [part] := by cases part <;> first | rfl | cases whole
    cases word <;> simp [shellGatherer, ShellValues.gathered, kept]
  | endWord number => cases word <;> cases number <;> rfl
  | operator text => cases word <;> rfl
  | newline => cases word <;> rfl

theorem gather_run {acts : List ShellAct} (whole : acts.all isWhole = true)
    (word : Option (List WordPart)) :
    shellGatherer.run (word.map fun parts => parts.flatMap values.part) acts =
      values.gathered (shellGatherer.run word acts) := by
  induction acts generalizing word with
  | nil => rfl
  | cons act acts ih =>
    rw [all_cons, Bool.and_eq_true] at whole
    have next := ih whole.2 (shellGatherer.step word act).1
    rw [run_cons, run_cons, gather_whole whole.1]
    unfold ShellValues.gathered at next ⊢
    simp only [next, map_append]

/-- In single quotes every character but a quote is itself. -/
def quoteActs (c : Char) : List ShellAct :=
  if c = '\'' then [.add (.literal c), .begin] else [.add (.literal c)]

def singleQuoted : ShellControl := ⟨.single, [], false, [], some false⟩

def openWord (digits : Option Bool) : ShellControl := ⟨.plain, [], false, [], digits⟩

theorem lex_single (text : List Char) :
    shellLexer.run singleQuoted ((text.flatMap fun c =>
        if c = '\'' then ['\'', '\\', '\'', '\''] else [c]).map .char) =
      (singleQuoted, text.flatMap quoteActs) := by
  induction text with
  | nil => rfl
  | cons c text ih =>
    rw [flatMap_cons, flatMap_cons, map_append, Transducer.run_append]
    have first : shellLexer.run singleQuoted
        ((if c = '\'' then ['\'', '\\', '\'', '\''] else [c]).map .char) =
        (singleQuoted, quoteActs c) := by
      by_cases quote : c = '\''
      · subst quote
        decide
      · have literal : singleQuoted.char c = (singleQuoted, [.add (.literal c)]) := if_neg quote
        simp [quoteActs, quote, literal]
    rw [first, ih]

theorem lex_quote (digits : Option Bool) (text : List Char) :
    shellLexer.run (openWord digits) ((shellQuote text).map .char) =
      (openWord (some false), .begin :: text.flatMap quoteActs) := by
  have opens : (openWord digits).char '\'' = (singleQuoted, [.begin]) := by
    cases digits <;> rfl
  have closes : singleQuoted.char '\'' = (openWord (some false), []) := rfl
  unfold shellQuote
  rw [map_append, map_cons, cons_append, run_cons, shellLexer_char, opens,
    Transducer.run_append, lex_single]
  simp [closes]

theorem gather_quote (word : Option (List WordPart)) (text : List Char) :
    shellGatherer.run word (.begin :: text.flatMap quoteActs) =
      (some (word.getD [] ++ text.map .literal), []) := by
  have rest : ∀ parts : List WordPart, shellGatherer.run (some parts) (text.flatMap quoteActs) =
      (some (parts ++ text.map .literal), []) := by
    induction text with
    | nil =>
      intro parts
      simp
    | cons c text ih =>
      intro parts
      have first : shellGatherer.run (some parts) (quoteActs c) =
          (some (parts ++ [.literal c]), []) := by
        unfold quoteActs
        split <;> rfl
      rw [flatMap_cons, Transducer.run_append, first, ih]
      simp
  rw [run_cons]
  exact rest (word.getD [])

theorem lex_digit {c : Char} (digit : c.isDigit = true) (digits : Option Bool) :
    (openWord digits).char c = (openWord (some (digits.getD true)), [.add (.bare c)]) := by
  have all : ∀ n < 10, ∀ digits ∈ [none, some true, some false],
      (openWord digits).char (Char.ofNat (48 + n)) =
        (openWord (some (digits.getD true)), [.add (.bare (Char.ofNat (48 + n)))]) := by
    decide
  have low : 48 ≤ c.toNat := by
    have := (Bool.and_eq_true _ _ ▸ digit : _ ∧ _).1
    exact UInt32.le_iff_toNat_le.mp (of_decide_eq_true this)
  have high : c.toNat ≤ 57 := by
    have := (Bool.and_eq_true _ _ ▸ digit : _ ∧ _).2
    exact UInt32.le_iff_toNat_le.mp (of_decide_eq_true this)
  have here := all (c.toNat - 48) (by omega) digits (by rcases digits with _ | _ | _ <;> simp)
  rw [show 48 + (c.toNat - 48) = c.toNat by omega, Char.ofNat_toNat] at here
  exact here

theorem lex_digits {text : List Char} (digit : ∀ c ∈ text, c.isDigit = true) (filled : text ≠ [])
    (digits : Option Bool) :
    shellLexer.run (openWord digits) (text.map .char) =
      (openWord (some (digits.getD true)), text.map fun c => .add (.bare c)) := by
  induction text generalizing digits with
  | nil => exact absurd rfl filled
  | cons c text ih =>
    rw [map_cons, run_cons, shellLexer_char, lex_digit (digit c (by simp))]
    cases text with
    | nil => rfl
    | cons next text =>
      rw [ih (fun other mem => digit other (mem_cons_of_mem c mem)) (by simp)]
      rfl

theorem gather_digits {text : List Char} (filled : text ≠ []) (word : Option (List WordPart)) :
    shellGatherer.run word (text.map fun c => .add (.bare c)) =
      (some (word.getD [] ++ text.map .bare), []) := by
  induction text generalizing word with
  | nil => exact absurd rfl filled
  | cons c text ih =>
    cases text with
    | nil => rfl
    | cons next text =>
      rw [map_cons, run_cons, ih (by simp)]
      simp [shellGatherer]

/-- A slot stands where a word can go on, outside all quotes. -/
def OpenSlot (control : ShellControl) : ShellSymbol → Prop
  | .char _ => True
  | _ => control = openWord control.digits

instance (control : ShellControl) (symbol : ShellSymbol) : Decidable (OpenSlot control symbol) := by
  unfold OpenSlot
  split <;> infer_instance

theorem fill_symbol (values : ShellValues) {symbol : ShellSymbol} (slot : OpenSlot control symbol)
    (word : Option (List WordPart)) :
    (shellLexer.run control ((values.symbol symbol).map .char)).1 =
        (shellLexer.step control symbol).1 ∧
      shellGatherer.run (word.map fun parts => parts.flatMap values.part)
          (shellLexer.run control ((values.symbol symbol).map .char)).2 =
        values.gathered (shellGatherer.run word (shellLexer.step control symbol).2) := by
  cases symbol with
  | char c =>
    have one : shellLexer.run control ((values.symbol (.char c)).map .char) = control.char c := by
      simp [ShellValues.symbol]
    rw [one]
    exact ⟨rfl, gather_run (char_whole control c) word⟩
  | quoted slot_index =>
    rw [show control = openWord control.digits from slot]
    have text : values.symbol (.quoted slot_index) = shellQuote (values.quoted slot_index) := rfl
    rw [text, lex_quote]
    refine ⟨rfl, (gather_quote _ _).trans ?_⟩
    cases word <;> simp [ShellValues.gathered, shellLexer, ShellControl.symbol, shellGatherer,
      ShellValues.part]
  | number slot_index =>
    rw [show control = openWord control.digits from slot]
    have text : values.symbol (.number slot_index) = toDigits 10 (values.number slot_index) :=
      rfl
    rw [text, lex_digits (fun c => toDigits_isDigit) toDigits_ne_nil]
    refine ⟨rfl, (gather_digits toDigits_ne_nil _).trans ?_⟩
    cases word <;> simp [ShellValues.gathered, shellLexer, ShellControl.symbol, shellGatherer,
      ShellValues.part]

theorem fill_run {template : List ShellSymbol} (slots : shellLexer.StepsMeet OpenSlot control template)
    (word : Option (List WordPart)) :
    shellGatherer.run (word.map fun parts => parts.flatMap values.part)
        (shellLexer.run control ((values.fill template).map .char)).2 =
      values.gathered (shellGatherer.run word (shellLexer.run control template).2) := by
  induction template generalizing control word with
  | nil => rfl
  | cons symbol template ih =>
    obtain ⟨same, gathered⟩ := fill_symbol values slots.1 word
    have rest := ih slots.2 (shellGatherer.run word (shellLexer.step control symbol).2).1
    unfold ShellValues.fill at rest ⊢
    rw [flatMap_cons, map_append, Transducer.run_append, Transducer.run_append, gathered,
      same, run_cons, Transducer.run_append]
    unfold ShellValues.gathered at rest ⊢
    simp only [rest, map_append]

theorem tokens_fill (values : ShellValues) {template : List ShellSymbol}
    (slots : shellLexer.StepsMeet OpenSlot .start template) :
    shellTokens (values.fill template) = (templateTokens template).map values.token :=
  congrArg Prod.snd (fill_run slots none)

end Filling

end PortMate
