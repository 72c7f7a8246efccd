import PortMate.ShellReader

namespace PortMate

open List Bool ShellAct ShellControl ShellValues Transducer

/-- How far a shell has come: what its reader goes by, the word that is open and the tokens. -/
structure ShellReading where
  control : ShellControl
  word : Option (List WordPart)
  tokens : List ShellToken

namespace ShellReading

def read (reading : ShellReading) (text : List Char) : ShellReading :=
  let lexed := shellLexer.run reading.control (text.map .char)
  let gathered := shellGatherer.run reading.word lexed.2
  ⟨lexed.1, gathered.1, reading.tokens ++ gathered.2⟩

/-- Outside all quotes and comments, in the command line itself. -/
def Outside (reading : ShellReading) : Prop :=
  reading.control.mode = .plain ∧ reading.control.nested = []

/-- The reading with one more part of its word, which has come to its end. -/
def withPart (reading : ShellReading) (text : List Char) : ShellReading where
  control := openWord (some false)
  word := some (reading.word.getD [] ++ text.map .literal)
  tokens := reading.tokens ++
    if reading.control.operator.isEmpty then [] else [.operator reading.control.operator]

theorem quote_ends_operator (operator : List Char) :
    isShellOperator (operator ++ ['\'']) = false := by
  have others : ∀ text, isShellOperator text = true → text.getLast? ≠ some '\'' := by
    intro text mem
    unfold isShellOperator at mem
    revert text
    simp only [decide_eq_true_eq]
    decide
  by_contra mem
  exact others _ (by simpa using mem) (by simp)

theorem quote_opens {control : ShellControl} (plain : control.mode = .plain)
    (direct : control.nested = []) : control.char '\'' =
      (singleQuoted, (if control.operator.isEmpty then []
        else [.operator control.operator]) ++ [.begin]) := by
  obtain ⟨mode, nested, dollar, operator, digits⟩ := control
  obtain rfl : mode = .plain := plain
  obtain rfl : nested = [] := direct
  have opens : ∀ operator : List Char, plainChar ⟨.plain, [], dollar, [], digits⟩ '\'' =
      (singleQuoted, [.begin]) := by
    intro _
    cases dollar <;> rfl
  cases operator with
  | nil => exact opens []
  | cons c rest =>
    have ends := quote_ends_operator (c :: rest)
    simp only [char, ShellControl.plain, isEmpty_nil, if_true, isEmpty_cons,
      false_eq_true, if_false, ends, opens []]
    rfl

theorem read_shellQuote {reading : ShellReading} (outside : reading.Outside) (text : List Char) :
    reading.read (shellQuote text) = reading.withPart text := by
  have closes : singleQuoted.char '\'' = (openWord (some false), []) := rfl
  have lexed : shellLexer.run reading.control ((shellQuote text).map .char) =
      (openWord (some false), (if reading.control.operator.isEmpty then []
        else [.operator reading.control.operator]) ++ .begin :: text.flatMap quoteActs) := by
    unfold shellQuote
    rw [map_append, map_cons, cons_append, run_cons, shellLexer_char,
      quote_opens outside.1 outside.2, Transducer.run_append, lex_single]
    simp [closes]
  have gathered : ∀ operator : List ShellAct, (∀ act ∈ operator, ∃ text, act = .operator text) →
      shellGatherer.run reading.word (operator ++ .begin :: text.flatMap quoteActs) =
        (some (reading.word.getD [] ++ text.map .literal),
          operator.flatMap fun act => match act with
            | .operator text => [.operator text]
            | _ => []) := by
    intro operator operators
    induction operator with
    | nil => exact gather_quote _ _
    | cons act rest ih =>
      obtain ⟨name, rfl⟩ := operators act mem_cons_self
      rw [cons_append, run_cons]
      have step : shellGatherer.step reading.word (.operator name) =
        (reading.word, [.operator name]) := rfl
      rw [step, ih fun act mem => operators act (mem_cons_of_mem _ mem)]
      rfl
  unfold read withPart
  simp only [lexed]
  rw [gathered]
  · cases reading.control.operator <;> rfl
  · intro act mem
    split at mem
    · exact absurd mem not_mem_nil
    · exact ⟨_, mem_singleton.mp mem⟩

end ShellReading

section Substitutions

variable {outer : List ShellFrame}

theorem nested_char {control : ShellControl} {frame : ShellFrame}
    (nested : control.nested = frame :: outer) (c : Char) :
    control.char c = ({ control with
        nested := nestedAfter control.dollar c (frame :: outer), dollar := c = '$' },
      [.add (.inner c)]) := by
  unfold char
  rw [nested]
  rfl

theorem nested_single (text : List Char) (control : ShellControl)
    (nested : control.nested = .single :: .command :: outer) :
    ∃ dollar, shellLexer.run control ((text.flatMap fun c =>
        if c = '\'' then ['\'', '\\', '\'', '\''] else [c]).map .char) =
      ({ control with dollar := dollar }, (text.flatMap fun c =>
        if c = '\'' then ['\'', '\\', '\'', '\''] else [c]).map (.add <| .inner ·)) := by
  induction text generalizing control with
  | nil => exact ⟨control.dollar, rfl⟩
  | cons c text ih =>
    rw [flatMap_cons, map_append, Transducer.run_append, map_append]
    have first : ∃ dollar, shellLexer.run control
        ((if c = '\'' then ['\'', '\\', '\'', '\''] else [c]).map .char) =
        ({ control with dollar := dollar },
          (if c = '\'' then ['\'', '\\', '\'', '\''] else [c]).map (.add <| .inner ·)) := by
      obtain ⟨mode, frames, dollar, operator, digits⟩ := control
      obtain rfl : frames = .single :: .command :: outer := nested
      by_cases quote : c = '\''
      · subst quote
        exact ⟨false, rfl⟩
      · refine ⟨c = '$', ?_⟩
        rw [if_neg quote, map_singleton, run_cons, shellLexer_char,
          nested_char rfl, nestedAfter, if_neg quote]
        rfl
    obtain ⟨dollar, first⟩ := first
    rw [first]
    obtain ⟨dollar', rest⟩ := ih { control with dollar := dollar } nested
    rw [rest]
    exact ⟨dollar', rfl⟩

theorem nested_shellQuote (text : List Char) {control : ShellControl}
    (nested : control.nested = .command :: outer) :
    shellLexer.run control ((shellQuote text).map .char) =
      ({ control with dollar := false }, (shellQuote text).map (.add <| .inner ·)) := by
  obtain ⟨mode, frames, dollar, operator, digits⟩ := control
  obtain rfl : frames = .command :: outer := nested
  unfold shellQuote
  have opens : (ShellControl.mk mode (.command :: outer) dollar operator digits).char '\'' =
      (⟨mode, .single :: .command :: outer, false, operator, digits⟩, [.add (.inner '\'')]) := rfl
  have closes : ∀ flag, (ShellControl.mk mode (.single :: .command :: outer) flag operator
      digits).char '\'' =
      (⟨mode, .command :: outer, false, operator, digits⟩, [.add (.inner '\'')]) := fun _ => rfl
  rw [map_append, map_cons, cons_append, run_cons, shellLexer_char, opens,
    Transducer.run_append]
  obtain ⟨flag, rest⟩ := nested_single text
    ⟨mode, .single :: .command :: outer, false, operator, digits⟩ rfl
  rw [rest]
  simp only [map_cons, map_nil, run_cons, run_nil, shellLexer_char,
    closes, map_append, append_nil, cons_append, nil_append]

end Substitutions

/-- A piece of a format: its text as it stands, or an argument. -/
inductive CommandPiece
  | text (text : String)
  | shellQuote (value : List Char)
  | number (value : Nat)
  deriving DecidableEq

open CommandPiece

namespace CommandPiece

def render : CommandPiece → List Char
  | text format => format.toList
  | shellQuote value => PortMate.shellQuote value
  | number value => Nat.toDigits 10 value

def symbols (slot : Nat) : CommandPiece → List ShellSymbol
  | text format => format.toList.map .char
  | shellQuote _ => [.quoted slot]
  | number _ => [.number slot]

end CommandPiece

def renderPieces (pieces : List CommandPiece) : List Char := pieces.flatMap render

/-- The template of a format, with its slots numbered from `slot` on. -/
def pieceTemplate : Nat → List CommandPiece → List ShellSymbol
  | _, [] => []
  | slot, piece :: pieces => piece.symbols slot ++ pieceTemplate (slot + 1) pieces

def pieceValues (pieces : List CommandPiece) : ShellValues where
  quoted slot := match pieces[slot]? with
    | some (.shellQuote value) => value
    | _ => []
  number slot := match pieces[slot]? with
    | some (.number value) => value
    | _ => 0

theorem fill_pieces {values : ShellValues} {pieces : List CommandPiece} {slot : Nat}
    (quoted : ∀ i value, pieces[i]? = some (.shellQuote value) → values.quoted (slot + i) = value)
    (number : ∀ i value, pieces[i]? = some (.number value) → values.number (slot + i) = value) :
    values.fill (pieceTemplate slot pieces) = renderPieces pieces := by
  induction pieces generalizing slot with
  | nil => rfl
  | cons piece pieces ih =>
    have rest := @ih (slot + 1)
      (fun i value there => by
        rw [Nat.add_assoc, Nat.add_comm 1]
        exact quoted (i + 1) value there)
      (fun i value there => by
        rw [Nat.add_assoc, Nat.add_comm 1]
        exact number (i + 1) value there)
    rw [pieceTemplate, fill, flatMap_append]
    rw [fill] at rest
    rw [rest]
    refine congrArg (· ++ renderPieces pieces) ?_
    cases piece with
    | text format =>
      rw [symbols, render, flatMap_map]
      exact flatMap_singleton' _
    | shellQuote value =>
      have filled := quoted 0 value rfl
      simpa [symbols, render, ShellValues.symbol] using
        congrArg PortMate.shellQuote filled
    | number value =>
      have filled := number 0 value rfl
      simpa [symbols, render, ShellValues.symbol] using
        congrArg (Nat.toDigits 10) filled

theorem fill_pieceValues (pieces : List CommandPiece) :
    (pieceValues pieces).fill (pieceTemplate 0 pieces) = renderPieces pieces := by
  apply fill_pieces
  · intro i value there
    rw [Nat.zero_add, pieceValues]
    simp only [there]
  · intro i value there
    rw [Nat.zero_add, pieceValues]
    simp only [there]

section Assignments

def WordPart.isSlot : WordPart → Bool
  | .quoted _ | .number _ => true
  | _ => false

/-- What stands before the first `=` of a word, where all of it is unquoted. -/
def bareName : List WordPart → Option (List Char)
  | .bare c :: rest => if c = '=' then some [] else (bareName rest).map (c :: ·)
  | _ => none

def isShellName : List Char → Bool
  | [] => false
  | c :: rest => (c.isAlpha || c = '_') && rest.all fun c => c.isAlphanum || c = '_'

/-- The name that a word assigns to, where it is an assignment. -/
def ShellToken.assigns : ShellToken → Option (List Char)
  | .word parts => (bareName parts).filter isShellName
  | _ => none

def ShellToken.SlotsLast : ShellToken → Prop
  | .word parts => parts.dropLast.all (!·.isSlot) = true
  | _ => True

instance : DecidablePred ShellToken.SlotsLast := fun token => by
  cases token <;> unfold ShellToken.SlotsLast <;> infer_instance

theorem bareName_append {front behind : List WordPart} (none_behind : bareName behind = none) :
    bareName (front ++ behind) = bareName front := by
  induction front with
  | nil => exact none_behind
  | cons part front ih =>
    cases part with
    | bare c =>
      rw [cons_append, bareName, bareName, ih]
    | literal c | double c | inner c | quoted slot | number slot => rfl

theorem bareName_digits {digits : List Char} (all : ∀ c ∈ digits, c.isDigit = true) :
    bareName (digits.map .bare) = none := by
  induction digits with
  | nil => rfl
  | cons c digits ih =>
    have digit := all c mem_cons_self
    have other : c ≠ '=' := by
      rintro rfl
      exact absurd digit (by decide)
    rw [map_cons, bareName, if_neg other, ih fun d mem => all d (mem_cons_of_mem c mem)]
    rfl

variable (values : ShellValues)

theorem bareName_slot {part : WordPart} (slot : part.isSlot = true) :
    bareName (values.part part) = none := by
  cases part with
  | quoted index =>
    rw [ShellValues.part]
    cases values.quoted index <;> rfl
  | number index => exact bareName_digits fun c => toDigits_isDigit
  | bare c | literal c | double c | inner c => exact absurd slot (by simp [WordPart.isSlot])

theorem part_of_not_slot {part : WordPart} (plain : part.isSlot = false) :
    values.part part = [part] := by
  cases part with
  | quoted slot | number slot => exact absurd plain (by simp [WordPart.isSlot])
  | bare c | literal c | double c | inner c => rfl

theorem parts_of_no_slot {parts : List WordPart} (plain : parts.all (!·.isSlot) = true) :
    parts.flatMap values.part = parts := by
  induction parts with
  | nil => rfl
  | cons part parts ih =>
    rw [all_cons, and_eq_true, not_eq_true'] at plain
    rw [flatMap_cons, part_of_not_slot values plain.1, ih plain.2]
    rfl

theorem assigns_token {token : ShellToken} (last : token.SlotsLast) :
    (values.token token).assigns = token.assigns := by
  cases token with
  | word parts =>
    rw [ShellValues.token, ShellToken.assigns, ShellToken.assigns]
    congr 1
    rcases eq_nil_or_concat' parts with rfl | ⟨front, part, rfl⟩
    · rfl
    · have plain : front.all (!·.isSlot) = true := by
        simpa [ShellToken.SlotsLast] using last
      rw [flatMap_append, parts_of_no_slot values plain, flatMap_singleton]
      cases slot : part.isSlot with
      | true =>
        have open_slot : bareName [part] = none := by
          cases part <;> first | rfl | exact absurd slot (by simp [WordPart.isSlot])
        rw [bareName_append (bareName_slot values slot), bareName_append open_slot]
      | false => rw [part_of_not_slot values slot]
  | ioNumber parts | operator text | newline => rfl

end Assignments

section FixedTexts

def Slotless (word : Option (List WordPart)) : Prop :=
  ∀ parts, word = some parts → parts.all (!·.isSlot) = true

def ShellToken.Slotless : ShellToken → Prop
  | .word parts => parts.all (!·.isSlot) = true
  | _ => True

theorem ShellToken.Slotless.last {token : ShellToken} (slotless : token.Slotless) :
    token.SlotsLast := by
  cases token with
  | word parts =>
    refine all_eq_true.mpr fun part mem => ?_
    exact all_eq_true.mp slotless part (dropLast_subset parts mem)
  | ioNumber parts | operator text | newline => trivial

theorem gather_slotless {word : Option (List WordPart)} {acts : List ShellAct}
    (open_word : Slotless word) (whole : acts.all isWhole = true) :
    ∀ token ∈ (shellGatherer.run word acts).2, token.Slotless := by
  induction acts generalizing word with
  | nil => exact fun token mem => absurd mem not_mem_nil
  | cons act acts ih =>
    rw [all_cons, and_eq_true] at whole
    rw [run_cons]
    intro token mem
    have rest : ∀ next, shellGatherer.step word act = next → Slotless next.1 →
        (∀ token ∈ next.2, token.Slotless) → token.Slotless := by
      intro next step kept emitted
      rw [step] at mem
      obtain now | later := mem_append.mp mem
      · exact emitted token now
      · exact ih kept whole.2 token later
    cases act with
    | begin =>
      refine rest _ rfl ?_ fun token mem => absurd mem not_mem_nil
      rintro parts same
      cases word with
      | none => rw [← Option.some.inj same]; rfl
      | some parts' => exact open_word parts same
    | add part =>
      refine rest _ rfl ?_ fun token mem => absurd mem not_mem_nil
      have plain : part.isSlot = false := by
        cases part <;> first | rfl | exact absurd whole.1 (by simp [isWhole])
      rintro parts same
      rw [← Option.some.inj same, all_append, all_cons, plain]
      cases word with
      | none => rfl
      | some parts' => simpa using open_word parts' rfl
    | endWord number =>
      refine rest _ rfl (fun _ same => absurd same.symm (Option.some_ne_none _)) fun token mem => ?_
      cases word with
      | none => exact absurd mem not_mem_nil
      | some parts =>
        rw [mem_singleton.mp mem]
        cases number with
        | true => trivial
        | false => exact open_word parts rfl
    | operator text =>
      refine rest _ rfl open_word fun token mem => ?_
      rw [mem_singleton.mp mem]
      trivial
    | newline =>
      refine rest _ rfl open_word fun token mem => ?_
      rw [mem_singleton.mp mem]
      trivial

theorem chars_whole (text : List Char) (control : ShellControl) :
    (shellLexer.run control (text.map .char)).2.all isWhole = true := by
  induction text generalizing control with
  | nil => rfl
  | cons c text ih =>
    rw [map_cons, run_cons, all_append, shellLexer_char, char_whole, ih]
    rfl

theorem slotsLast_chars {front : List ShellSymbol}
    (closed : (shellGatherer.run none (shellLexer.run .start front).2).1 = none)
    (last : ∀ token ∈ templateTokens front, token.SlotsLast) (text : List Char) :
    ∀ token ∈ templateTokens (front ++ text.map .char), token.SlotsLast := by
  intro token mem
  rw [templateTokens, Transducer.run_append, Transducer.run_append, closed] at mem
  obtain early | late := mem_append.mp mem
  · exact last token early
  · exact (gather_slotless (fun _ same => absurd same.symm (Option.some_ne_none _))
      (chars_whole text _) token late).last

theorem stepsMeet_chars (control : ShellControl) (text : List Char) :
    shellLexer.StepsMeet OpenSlot control (text.map .char) := by
  induction text generalizing control with
  | nil => trivial
  | cons c text ih => exact ⟨trivial, ih _⟩

end FixedTexts

end PortMate
