import Mathlib.Data.List.Infix
import PortMate.CommandHistory
import PortMate.Utf16

namespace PortMate.CommandLine

open List

structure TerminalCommandLineTrackerState where
  line : List Char
  cursor : Nat
  synchronized : Bool
  pendingEscape : List Char
  bracketedPaste : Bool
  deriving DecidableEq

def emptyTerminalCommandLineTracker : TerminalCommandLineTrackerState :=
  { line := [], cursor := 0, synchronized := true, pendingEscape := [], bracketedPaste := false }

def escape : Char := '\x1b'

/-- `[0-9;]`. -/
def isParameter (c : Char) : Bool :=
  c.isDigit || c = ';'

/-- `[@-~]`. -/
def isFinal (c : Char) : Bool :=
  '@' ≤ c && c ≤ '~'

/-- What the patterns for the text after an escape match. -/
structure EscapeSequence where
  parameters : List Char
  final : Char
  length : Nat
  deriving DecidableEq

def escapeSequence : List Char → Option EscapeSequence
  | '[' :: rest =>
    match rest.dropWhile isParameter with
    | final :: _ =>
      if isFinal final then
        some
          { parameters := rest.takeWhile isParameter
            final := final
            length := (rest.takeWhile isParameter).length + 2 }
      else none
    | [] => none
  | 'O' :: final :: _ =>
    if ['A', 'B', 'C', 'D', 'H', 'F'].contains final then
      some { parameters := [], final := final, length := 2 }
    else none
  | _ => none

/-- Whether the text after an escape may be the beginning of a sequence. -/
def isIncomplete : List Char → Bool
  | [] => true
  | '[' :: rest => rest.all isParameter
  | tail => tail = ['O']

structure TrackRun where
  state : TerminalCommandLineTrackerState
  chars : List Char
  submitted : List (List Char)

/-- `Number`, for digits. -/
def numberOf (digits : List Char) : Nat :=
  digits.foldl (fun n c => 10 * n + (c.toNat - '0'.toNat)) 0

/-- `text.replace(/\S+\s*$/, "")`. -/
def withoutLastWord (text : List Char) : List Char :=
  let words := text.rdropWhile isJsSpace
  if words = [] then text else words.rdropWhile fun c => !isJsSpace c

def TrackRun.lost (run : TrackRun) : TrackRun :=
  { run with state := { run.state with synchronized := false } }

def TrackRun.moved (run : TrackRun) (cursor : Nat) : TrackRun :=
  { run with state := { run.state with cursor := cursor } }

def TrackRun.sequence (run : TrackRun) (sequence : EscapeSequence) : TrackRun :=
  let { parameters, final, .. } := sequence
  let cursor := run.state.cursor
  if final = '~' ∧ parameters = ['2', '0', '0'] then
    { run with state := { run.state with bracketedPaste := true } }
  else if final = '~' ∧ parameters = ['2', '0', '1'] then
    { run with state := { run.state with bracketedPaste := false } }
  else if !run.state.synchronized then run
  else
    let amount := max 1 (if numberOf parameters = 0 then 1 else numberOf parameters)
    if run.state.bracketedPaste || parameters.contains ';' then run.lost
    else if final = 'D' then run.moved (cursor - amount)
    else if final = 'C' then run.moved (min run.chars.length (cursor + amount))
    else if final = 'H' ∨ final = '~' ∧ (parameters = ['1'] ∨ parameters = ['7']) then run.moved 0
    else if final = 'F' ∨ final = '~' ∧ (parameters = ['4'] ∨ parameters = ['8']) then
      run.moved run.chars.length
    else if final = '~' ∧ parameters = ['3'] then { run with chars := run.chars.eraseIdx cursor }
    else run.lost

def TrackRun.char (run : TrackRun) (char : Char) : TrackRun :=
  let { chars, submitted, state } := run
  let cursor := state.cursor
  if !state.bracketedPaste && (char = '\r' || char = '\n') then
    { state := emptyTerminalCommandLineTracker
      chars := []
      submitted :=
        if state.synchronized && !(jsTrim chars).isEmpty then submitted ++ [chars] else submitted }
  else if !state.bracketedPaste && char = '\x03' then
    { state := emptyTerminalCommandLineTracker, chars := [], submitted := submitted }
  else if !state.synchronized then run
  else if !state.bracketedPaste && (char = '\x08' || char = '\x7f') then
    if cursor > 0 then { run.moved (cursor - 1) with chars := chars.eraseIdx (cursor - 1) } else run
  else if !state.bracketedPaste && char = '\x01' then run.moved 0
  else if !state.bracketedPaste && char = '\x05' then run.moved chars.length
  else if !state.bracketedPaste && char = '\x02' then run.moved (cursor - 1)
  else if !state.bracketedPaste && char = '\x06' then run.moved (min chars.length (cursor + 1))
  else if !state.bracketedPaste && char = '\x04' then { run with chars := chars.eraseIdx cursor }
  else if !state.bracketedPaste && char = '\x0b' then { run with chars := chars.take cursor }
  else if !state.bracketedPaste && char = '\x15' then
    { run.moved 0 with chars := chars.drop cursor }
  else if !state.bracketedPaste && char = '\x17' then
    let remaining := (withoutLastWord (chars.take cursor)).length
    { run.moved remaining with chars := chars.take remaining ++ chars.drop cursor }
  else if (' ' ≤ char && !('\x7f' ≤ char && char ≤ '\u009f')) ||
      (state.bracketedPaste && (char = '\r' || char = '\n' || char = '\t')) then
    if chars.length ≥ maxCommandHistoryCommandCharacters then run.lost
    else
      { run.moved (cursor + 1) with
        chars := chars.take cursor ++ (if char = '\r' then '\n' else char) :: chars.drop cursor }
  else run.lost

/-- The loop over the characters, of which the next `skipped` belong to a sequence. -/
def trackLoop : List Char → Nat → TrackRun → TrackRun
  | [], _, run => run
  | _ :: rest, skipped + 1, run => trackLoop rest skipped run
  | char :: tail, 0, run =>
    if char = escape then
      match escapeSequence tail with
      | some sequence => trackLoop tail sequence.length (run.sequence sequence)
      | none =>
        if isIncomplete tail && tail.length < 32 then
          { run with state := { run.state with pendingEscape := escape :: tail } }
        else trackLoop tail 0 run.lost
    else trackLoop tail 0 (run.char char)

def TrackRun.finish (run : TrackRun) : TerminalCommandLineTrackerState :=
  { run.state with
    line := if run.state.synchronized then run.chars else []
    cursor := if run.state.synchronized then run.state.cursor else 0 }

def trackTerminalCommandInput (current : TerminalCommandLineTrackerState) (input : List Char)
    (sensitive : Bool) : TerminalCommandLineTrackerState × List (List Char) :=
  if sensitive then
    ({ emptyTerminalCommandLineTracker with
        synchronized :=
          input.getLast?.any fun c => c = '\r' || c = '\n' || c = '\x03' || c = '\x15' },
      [])
  else
    let run := trackLoop (current.pendingEscape ++ input) 0
      { state := { current with pendingEscape := [] }, chars := current.line, submitted := [] }
    (run.finish, run.submitted)

section Keys

inductive Key
  | typed (char : Char)
  | sequence (sequence : EscapeSequence)
  | unknown

/-- The keys of a text, of which the next `skipped` characters belong to a sequence, and the
sequence that it breaks off in. -/
def keysOf : List Char → Nat → List Key × List Char
  | [], _ => ([], [])
  | _ :: rest, skipped + 1 => keysOf rest skipped
  | char :: tail, 0 =>
    if char = escape then
      match escapeSequence tail with
      | some sequence =>
        ((.sequence sequence) :: (keysOf tail sequence.length).1, (keysOf tail sequence.length).2)
      | none =>
        if isIncomplete tail && tail.length < 32 then ([], escape :: tail)
        else (.unknown :: (keysOf tail 0).1, (keysOf tail 0).2)
    else ((.typed char) :: (keysOf tail 0).1, (keysOf tail 0).2)

def TrackRun.press (run : TrackRun) : Key → TrackRun
  | .typed char => run.char char
  | .sequence sequence => run.sequence sequence
  | .unknown => run.lost

/-- What follows an escape up to the end of its sequence, as far as parameters go. -/
def escapeLength : List Char → Nat
  | '\x1b' :: '[' :: rest => 2 + (rest.takeWhile isParameter).length
  | _ => 0

/-- Each escape sequence of a text is shorter than 32 characters. -/
def ShortEscapes (text : List Char) : Prop :=
  ∀ tail ∈ text.tails, escapeLength tail < 32

instance (text : List Char) : Decidable (ShortEscapes text) :=
  inferInstanceAs (Decidable (∀ tail ∈ text.tails, escapeLength tail < 32))

theorem ShortEscapes.suffix {text tail : List Char} (short : ShortEscapes text)
    (suffix : tail <:+ text) : ShortEscapes tail :=
  fun rest mem => short rest
    ((mem_tails _ _).mpr (((mem_tails _ _).mp mem).trans suffix))

theorem parameters_length {rest others : List Char} {final : Char}
    (left : rest.dropWhile isParameter = final :: others) :
    (rest.takeWhile isParameter).length + others.length + 1 = rest.length := by
  have parts := congrArg List.length
    (takeWhile_append_dropWhile (p := isParameter) (l := rest))
  rw [length_append, left, length_cons] at parts
  omega

theorem escapeSequence_length {tail : List Char} {sequence : EscapeSequence}
    (found : escapeSequence tail = some sequence) : sequence.length ≤ tail.length := by
  unfold escapeSequence at found
  split at found
  next rest =>
    split at found
    next final others at' =>
      split at found
      · obtain rfl := Option.some.inj found
        have parts := parameters_length at'
        rw [length_cons]
        dsimp only
        omega
      · exact absurd found.symm (Option.some_ne_none _)
    next => exact absurd found.symm (Option.some_ne_none _)
  next =>
    split at found
    · obtain rfl := Option.some.inj found
      simp
    · exact absurd found.symm (Option.some_ne_none _)
  next => exact absurd found.symm (Option.some_ne_none _)

theorem escapeSequence_other {c : Char} (bracket : c ≠ '[') (letter : c ≠ 'O') (rest : List Char) :
    escapeSequence (c :: rest) = none := by
  unfold escapeSequence
  split
  next same => exact absurd (List.cons.inj same).1 bracket
  next same => exact absurd (List.cons.inj same).1 letter
  next => rfl

theorem isIncomplete_other {c : Char} (bracket : c ≠ '[') (rest : List Char) :
    isIncomplete (c :: rest) = decide (c :: rest = ['O']) := by
  unfold isIncomplete
  split
  next same => exact absurd same (cons_ne_nil _ _)
  next same => exact absurd (List.cons.inj same).1 bracket
  next => rfl

theorem escapeSequence_append (tail more : List Char)
    (decided : escapeSequence tail ≠ none ∨ isIncomplete tail = false) :
    escapeSequence (tail ++ more) = escapeSequence tail ∧
      (escapeSequence tail = none → isIncomplete (tail ++ more) = false) := by
  cases tail with
  | nil => exact absurd decided (by decide)
  | cons c rest =>
    by_cases bracket : c = '['
    · subst bracket
      cases left : rest.dropWhile isParameter with
      | nil =>
        have complete : rest.all isParameter = true :=
          all_eq_true.mpr (dropWhile_eq_nil_iff.mp left)
        obtain found | stops := decided
        · simp [escapeSequence, left] at found
        · simp [isIncomplete, complete] at stops
      | cons final others =>
        have left' : (rest ++ more).dropWhile isParameter = final :: (others ++ more) := by
          rw [dropWhile_append, left]
          rfl
        have taken : (rest ++ more).takeWhile isParameter = rest.takeWhile isParameter := by
          rw [takeWhile_append, if_neg]
          intro whole
          have parts := parameters_length left
          omega
        have stop : (rest ++ more).all isParameter = false := by
          rw [← Bool.not_eq_true, all_eq_true, ← dropWhile_eq_nil_iff, left']
          exact cons_ne_nil _ _
        refine ⟨?_, fun _ => stop⟩
        simp only [cons_append, escapeSequence, left, left', taken]
    · by_cases letter : c = 'O'
      · subst letter
        cases rest with
        | nil => exact absurd decided (by decide)
        | cons final others => exact ⟨rfl, fun _ => by simp [isIncomplete]⟩
      · rw [cons_append, escapeSequence_other bracket letter,
          escapeSequence_other bracket letter]
        refine ⟨rfl, fun _ => ?_⟩
        rw [isIncomplete_other bracket]
        exact decide_eq_false fun same => letter (List.cons.inj same).1

theorem ShortEscapes.first {tail more : List Char}
    (short : ShortEscapes (escape :: tail ++ more)) : escapeLength (escape :: tail) < 32 := by
  have whole := short _ ((mem_tails _ _).mpr (suffix_refl _))
  cases tail with
  | nil => decide
  | cons c rest =>
    by_cases bracket : c = '['
    · subst bracket
      have bound : 2 + ((rest ++ more).takeWhile isParameter).length < 32 := whole
      change 2 + (rest.takeWhile isParameter).length < 32
      rw [takeWhile_append] at bound
      split at bound
      · rw [length_append] at bound
        have part := (List.takeWhile_prefix isParameter (l := rest)).length_le
        omega
      · exact bound
    · unfold escapeLength
      split
      next same => exact absurd (List.cons.inj (List.cons.inj same).2).1 bracket
      next => decide

theorem short_incomplete {tail : List Char} (short : escapeLength (escape :: tail) < 32)
    (incomplete : isIncomplete tail = true) : tail.length < 32 := by
  cases tail with
  | nil => decide
  | cons c rest =>
    by_cases bracket : c = '['
    · subst bracket
      have whole : rest.takeWhile isParameter = rest :=
        takeWhile_eq_self_iff.mpr (all_eq_true.mp incomplete)
      have bound : 2 + (rest.takeWhile isParameter).length < 32 := short
      rw [whole] at bound
      rw [length_cons]
      omega
    · rw [isIncomplete_other bracket] at incomplete
      rw [of_decide_eq_true incomplete]
      decide

theorem keysOf_append (text more : List Char) (short : ShortEscapes (text ++ more)) :
    ∀ skipped, skipped ≤ text.length →
      keysOf (text ++ more) skipped =
        ((keysOf text skipped).1 ++ (keysOf ((keysOf text skipped).2 ++ more) 0).1,
          (keysOf ((keysOf text skipped).2 ++ more) 0).2) := by
  induction text with
  | nil =>
    intro skipped none
    obtain rfl := Nat.le_zero.mp none
    rfl
  | cons char tail ih =>
    have ih := ih (short.suffix (suffix_cons _ _))
    intro skipped within
    cases skipped with
    | succ skipped => exact ih skipped (Nat.le_of_succ_le_succ within)
    | zero =>
      by_cases escaped : char = escape
      · subst escaped
        cases found : escapeSequence tail with
        | some sequence =>
          obtain ⟨same, -⟩ := escapeSequence_append tail more (.inl (by simp [found]))
          have rest := ih sequence.length (escapeSequence_length found)
          rw [found] at same
          simp only [cons_append, keysOf, if_true, found, same, rest]
        | none =>
          cases incomplete : isIncomplete tail with
          | true =>
            have length := short_incomplete short.first incomplete
            have broken : keysOf (escape :: tail) 0 = ([], escape :: tail) := by
              simp only [keysOf, if_true, found, incomplete, length, decide_true, Bool.and_self]
            rw [broken]
            rfl
          | false =>
            obtain ⟨same, stays⟩ := escapeSequence_append tail more (.inr incomplete)
            rw [found] at same
            simp only [cons_append, keysOf, if_true, found, same, incomplete, stays found,
              Bool.false_and, Bool.false_eq_true, if_false, ih 0 (Nat.zero_le _)]
      · simp only [cons_append, keysOf, if_neg escaped, ih 0 (Nat.zero_le _)]

end Keys

section Edits

/-- The edits whose effect on the line is known. -/
inductive LineEdit
  | insert (char : Char)
  | deleteBefore
  | deleteAfter
  | killBefore
  | killAfter
  | killWord
  | left (amount : Nat)
  | right (amount : Nat)
  | home
  | last

structure EditLine where
  before : List Char
  after : List Char
  deriving DecidableEq

def LineEdit.apply (line : EditLine) : LineEdit → EditLine
  | .insert char => { line with before := line.before ++ [char] }
  | .deleteBefore => { line with before := line.before.dropLast }
  | .deleteAfter => { line with after := line.after.tail }
  | .killBefore => { line with before := [] }
  | .killAfter => { line with after := [] }
  | .killWord => { line with before := withoutLastWord line.before }
  | .left amount =>
    { before := line.before.rdrop amount, after := line.before.rtake amount ++ line.after }
  | .right amount =>
    { before := line.before ++ line.after.take amount, after := line.after.drop amount }
  | .home => { before := [], after := line.before ++ line.after }
  | .last => { before := line.before ++ line.after, after := [] }

/-- What the loop does to its characters and cursor for an edit. -/
def LineEdit.onChars (chars : List Char) (cursor : Nat) : LineEdit → List Char × Nat
  | .insert char => (chars.take cursor ++ char :: chars.drop cursor, cursor + 1)
  | .deleteBefore =>
    if cursor > 0 then (chars.eraseIdx (cursor - 1), cursor - 1) else (chars, cursor)
  | .deleteAfter => (chars.eraseIdx cursor, cursor)
  | .killBefore => (chars.drop cursor, 0)
  | .killAfter => (chars.take cursor, cursor)
  | .killWord =>
    (chars.take (withoutLastWord (chars.take cursor)).length ++ chars.drop cursor,
      (withoutLastWord (chars.take cursor)).length)
  | .left amount => (chars, cursor - amount)
  | .right amount => (chars, min chars.length (cursor + amount))
  | .home => (chars, 0)
  | .last => (chars, chars.length)

/-- What a key asks for; no edit where its effect is not known. -/
inductive Meaning
  | enter
  | interrupt
  | paste (on : Bool)
  | change (edit : Option LineEdit)

def typedEdit (paste : Bool) (char : Char) : Option LineEdit :=
  if !paste && (char = '\x08' || char = '\x7f') then some .deleteBefore
  else if !paste && char = '\x01' then some .home
  else if !paste && char = '\x05' then some .last
  else if !paste && char = '\x02' then some (.left 1)
  else if !paste && char = '\x06' then some (.right 1)
  else if !paste && char = '\x04' then some .deleteAfter
  else if !paste && char = '\x0b' then some .killAfter
  else if !paste && char = '\x15' then some .killBefore
  else if !paste && char = '\x17' then some .killWord
  else if (' ' ≤ char && !('\x7f' ≤ char && char ≤ '\u009f')) ||
      (paste && (char = '\r' || char = '\n' || char = '\t')) then
    some (.insert (if char = '\r' then '\n' else char))
  else none

def sequenceEdit (paste : Bool) (sequence : EscapeSequence) : Option LineEdit :=
  let { parameters, final, .. } := sequence
  let amount := max 1 (if numberOf parameters = 0 then 1 else numberOf parameters)
  if paste || parameters.contains ';' then none
  else if final = 'D' then some (.left amount)
  else if final = 'C' then some (.right amount)
  else if final = 'H' ∨ final = '~' ∧ (parameters = ['1'] ∨ parameters = ['7']) then some .home
  else if final = 'F' ∨ final = '~' ∧ (parameters = ['4'] ∨ parameters = ['8']) then some .last
  else if final = '~' ∧ parameters = ['3'] then some .deleteAfter
  else none

def Key.meaning (paste : Bool) : Key → Meaning
  | .typed char =>
    if !paste && (char = '\r' || char = '\n') then .enter
    else if !paste && char = '\x03' then .interrupt
    else .change (typedEdit paste char)
  | .sequence read =>
    if read.final = '~' ∧ read.parameters = ['2', '0', '0'] then .paste true
    else if read.final = '~' ∧ read.parameters = ['2', '0', '1'] then .paste false
    else .change (sequenceEdit paste read)
  | .unknown => .change none

/-- Whether an edit would make a line too long to be tracked. -/
def LineEdit.overfills (length : Nat) : LineEdit → Bool
  | .insert _ => length ≥ maxCommandHistoryCommandCharacters
  | _ => false

def TrackRun.edit (run : TrackRun) (edit : LineEdit) : TrackRun :=
  { run.moved (edit.onChars run.chars run.state.cursor).2 with
    chars := (edit.onChars run.chars run.state.cursor).1 }

def TrackRun.means (run : TrackRun) : Meaning → TrackRun
  | .enter =>
    { state := emptyTerminalCommandLineTracker
      chars := []
      submitted :=
        if run.state.synchronized && !(jsTrim run.chars).isEmpty then run.submitted ++ [run.chars]
        else run.submitted }
  | .interrupt =>
    { state := emptyTerminalCommandLineTracker, chars := [], submitted := run.submitted }
  | .paste on => { run with state := { run.state with bracketedPaste := on } }
  | .change none => run.lost
  | .change (some edit) =>
    if !run.state.synchronized then run
    else if edit.overfills run.chars.length then run.lost
    else run.edit edit

theorem lost_of_lost {run : TrackRun} (lost : run.state.synchronized = false) : run.lost = run := by
  obtain ⟨⟨_, _, synchronized, _, _⟩, _, _⟩ := run
  obtain rfl : synchronized = false := lost
  rfl

theorem means_lost {run : TrackRun} (lost : run.state.synchronized = false)
    (edit : Option LineEdit) : run.means (.change edit) = run := by
  cases edit with
  | none => exact lost_of_lost lost
  | some edit =>
    unfold TrackRun.means
    rw [lost]
    rfl

theorem press_means (run : TrackRun) (key : Key) :
    run.press key = run.means (key.meaning run.state.bracketedPaste) := by
  obtain ⟨⟨line, cursor, synchronized, pending, paste⟩, chars, submitted⟩ := run
  cases key with
  | unknown => rfl
  | sequence read =>
    obtain ⟨parameters, final, length⟩ := read
    simp only [TrackRun.press, TrackRun.sequence, Key.meaning]
    by_cases start : final = '~' ∧ parameters = ['2', '0', '0']
    · rw [if_pos start, if_pos start]
      rfl
    rw [if_neg start, if_neg start]
    by_cases stop : final = '~' ∧ parameters = ['2', '0', '1']
    · rw [if_pos stop, if_pos stop]
      rfl
    rw [if_neg stop, if_neg stop]
    cases synchronized with
    | false => rw [means_lost rfl]; rfl
    | true =>
      rw [if_neg (by decide)]
      simp only [sequenceEdit]
      repeat' split
      all_goals rfl
  | typed char =>
    simp only [TrackRun.press, TrackRun.char, Key.meaning]
    by_cases enter : (!paste && (decide (char = '\r') || decide (char = '\n'))) = true
    · rw [if_pos enter, if_pos enter]
      rfl
    rw [if_neg enter, if_neg enter]
    by_cases interrupt : (!paste && decide (char = '\x03')) = true
    · rw [if_pos interrupt, if_pos interrupt]
      rfl
    rw [if_neg interrupt, if_neg interrupt]
    cases synchronized with
    | false => rw [means_lost rfl]; rfl
    | true =>
      rw [if_neg (by decide)]
      simp only [typedEdit]
      by_cases back : (!paste && (decide (char = '\x08') || decide (char = '\x7f'))) = true
      · rw [if_pos back, if_pos back]
        simp only [TrackRun.means, LineEdit.overfills, TrackRun.edit, LineEdit.onChars]
        split <;> rfl
      rw [if_neg back, if_neg back]
      by_cases home : (!paste && decide (char = '\x01')) = true
      · rw [if_pos home, if_pos home]
        rfl
      rw [if_neg home, if_neg home]
      by_cases last : (!paste && decide (char = '\x05')) = true
      · rw [if_pos last, if_pos last]
        rfl
      rw [if_neg last, if_neg last]
      by_cases left : (!paste && decide (char = '\x02')) = true
      · rw [if_pos left, if_pos left]
        rfl
      rw [if_neg left, if_neg left]
      by_cases right : (!paste && decide (char = '\x06')) = true
      · rw [if_pos right, if_pos right]
        rfl
      rw [if_neg right, if_neg right]
      by_cases forward : (!paste && decide (char = '\x04')) = true
      · rw [if_pos forward, if_pos forward]
        rfl
      rw [if_neg forward, if_neg forward]
      by_cases killAfter : (!paste && decide (char = '\x0b')) = true
      · rw [if_pos killAfter, if_pos killAfter]
        rfl
      rw [if_neg killAfter, if_neg killAfter]
      by_cases killBefore : (!paste && decide (char = '\x15')) = true
      · rw [if_pos killBefore, if_pos killBefore]
        rfl
      rw [if_neg killBefore, if_neg killBefore]
      by_cases killWord : (!paste && decide (char = '\x17')) = true
      · rw [if_pos killWord, if_pos killWord]
        rfl
      rw [if_neg killWord, if_neg killWord]
      split
      · simp only [TrackRun.means, LineEdit.overfills, TrackRun.edit, LineEdit.onChars,
          decide_eq_true_eq]
        rfl
      · rfl

end Edits

section Presses

/-- The loop's variables with the sequence that the text broke off in. -/
def TrackRun.broken (run : TrackRun) (pendingEscape : List Char) : TrackRun :=
  { run with state := { run.state with pendingEscape := pendingEscape } }

theorem press_pending {run : TrackRun} (key : Key) (empty : run.state.pendingEscape = []) :
    (run.press key).state.pendingEscape = [] := by
  rw [press_means]
  cases key.meaning run.state.bracketedPaste with
  | enter => rfl
  | interrupt => rfl
  | paste on => exact empty
  | change edit =>
    cases edit with
    | none => exact empty
    | some edit =>
      unfold TrackRun.means
      dsimp only
      split
      · exact empty
      · split <;> exact empty

variable (keys : List Key)

theorem pressed_pending {run : TrackRun} (empty : run.state.pendingEscape = []) :
    (keys.foldl TrackRun.press run).state.pendingEscape = [] := by
  induction keys generalizing run with
  | nil => exact empty
  | cons key keys ih => exact ih (press_pending key empty)

theorem unbroken {run : TrackRun} (empty : run.state.pendingEscape = []) : run.broken [] = run := by
  obtain ⟨⟨_, _, _, pending, _⟩, _, _⟩ := run
  obtain rfl : pending = [] := empty
  rfl

theorem trackLoop_keys (text : List Char) (skipped : Nat) {run : TrackRun}
    (empty : run.state.pendingEscape = []) :
    trackLoop text skipped run =
      ((keysOf text skipped).1.foldl TrackRun.press run).broken (keysOf text skipped).2 := by
  induction text generalizing skipped run with
  | nil =>
    unfold trackLoop keysOf
    exact (unbroken empty).symm
  | cons char tail ih =>
    cases skipped with
    | succ skipped => exact ih skipped empty
    | zero =>
      unfold trackLoop keysOf
      by_cases escaped : char = escape
      · rw [if_pos escaped, if_pos escaped]
        cases escapeSequence tail with
        | some read => exact ih read.length (press_pending (.sequence read) empty)
        | none =>
          dsimp only
          by_cases breaks : (isIncomplete tail && decide (tail.length < 32)) = true
          · rw [if_pos breaks, if_pos breaks]
            rfl
          · rw [if_neg breaks, if_neg breaks]
            exact ih 0 (press_pending .unknown empty)
      · rw [if_neg escaped, if_neg escaped]
        exact ih 0 (press_pending (.typed char) empty)

/-- The loop's variables as the next call would find them: a line that is lost is forgotten. -/
def TrackRun.settled (run : TrackRun) : TrackRun :=
  { state := run.finish, chars := run.finish.line, submitted := run.submitted }

variable (run : TrackRun)

theorem press_settled (key : Key) : (run.settled.press key).settled = (run.press key).settled := by
  obtain ⟨⟨line, cursor, synchronized, pending, paste⟩, chars, submitted⟩ := run
  rw [press_means, press_means]
  cases synchronized with
  | false =>
    change (TrackRun.means ⟨⟨[], 0, false, pending, paste⟩, [], submitted⟩
      (key.meaning paste)).settled = _
    cases key.meaning paste with
    | enter => rfl
    | interrupt => rfl
    | paste on => rfl
    | change edit =>
      rw [means_lost rfl, means_lost rfl]
      rfl
  | true =>
    change (TrackRun.means ⟨⟨chars, cursor, true, pending, paste⟩, chars, submitted⟩
      (key.meaning paste)).settled = _
    cases key.meaning paste with
    | enter => rfl
    | interrupt => rfl
    | paste on => rfl
    | change edit =>
      cases edit with
      | none => rfl
      | some edit =>
        unfold TrackRun.means
        dsimp only
        have known : ¬ (!true) = true := by decide
        rw [if_neg known, if_neg known]
        split <;> rfl

theorem settled_settled : run.settled.settled = run.settled := by
  obtain ⟨⟨line, cursor, synchronized, pending, paste⟩, chars, submitted⟩ := run
  cases synchronized <;> rfl

theorem pressed_settled (run : TrackRun) :
    (keys.foldl TrackRun.press run.settled).settled = (keys.foldl TrackRun.press run).settled := by
  induction keys generalizing run with
  | nil => exact settled_settled run
  | cons key keys ih => rw [foldl_cons, foldl_cons, ← ih, press_settled, ih]

/-- What a run submits comes after what was submitted before. -/
def TrackRun.after (run : TrackRun) (before : List (List Char)) : TrackRun :=
  { run with submitted := before ++ run.submitted }

theorem press_after (before : List (List Char)) (key : Key) :
    (run.after before).press key = (run.press key).after before := by
  obtain ⟨⟨line, cursor, synchronized, pending, paste⟩, chars, submitted⟩ := run
  rw [press_means, press_means]
  change TrackRun.means ⟨⟨line, cursor, synchronized, pending, paste⟩, chars, before ++ submitted⟩
    (key.meaning paste) = _
  cases key.meaning paste with
  | enter =>
    unfold TrackRun.means TrackRun.after
    dsimp only
    split <;> simp
  | interrupt => rfl
  | paste on => rfl
  | change edit =>
    cases edit with
    | none => rfl
    | some edit =>
      cases synchronized with
      | false => rfl
      | true =>
        unfold TrackRun.means TrackRun.after
        dsimp only
        have known : ¬ (!true) = true := by decide
        rw [if_neg known, if_neg known]
        split <;> rfl

theorem pressed_after (run : TrackRun) (before : List (List Char)) :
    keys.foldl TrackRun.press (run.after before) =
      (keys.foldl TrackRun.press run).after before := by
  induction keys generalizing run with
  | nil => rfl
  | cons key keys ih => rw [foldl_cons, foldl_cons, press_after, ih]

end Presses

section Calls

/-- The loop's variables at the start of a call. -/
def TerminalCommandLineTrackerState.begun (current : TerminalCommandLineTrackerState) : TrackRun :=
  { state := { current with pendingEscape := [] }, chars := current.line, submitted := [] }

/-- The keys that a call reads, after the sequence that the last one broke off in. -/
def TerminalCommandLineTrackerState.pressed (current : TerminalCommandLineTrackerState)
    (input : List Char) : TrackRun :=
  (keysOf (current.pendingEscape ++ input) 0).1.foldl TrackRun.press current.begun

variable (current : TerminalCommandLineTrackerState)

theorem track_pressed (input : List Char) :
    trackTerminalCommandInput current input false =
      (((current.pressed input).broken (keysOf (current.pendingEscape ++ input) 0).2).finish,
        (current.pressed input).submitted) := by
  have loop := @trackLoop_keys (current.pendingEscape ++ input) 0 current.begun rfl
  change ((trackLoop _ 0 current.begun).finish, (trackLoop _ 0 current.begun).submitted) = _
  rw [loop]
  rfl

theorem keysOf_suffix (text : List Char) (skipped : Nat) : (keysOf text skipped).2 <:+ text := by
  induction text generalizing skipped with
  | nil => exact suffix_refl _
  | cons char tail ih =>
    have longer (skipped : Nat) : (keysOf tail skipped).2 <:+ char :: tail :=
      (ih skipped).trans (suffix_cons _ _)
    cases skipped with
    | succ skipped => exact longer skipped
    | zero =>
      unfold keysOf
      split
      next escaped =>
        split
        · exact longer _
        · split
          · rw [escaped]
          · exact longer 0
      next => exact longer 0

theorem track_append (input more : List Char)
    (short : ShortEscapes (current.pendingEscape ++ (input ++ more))) :
    let first := trackTerminalCommandInput current input false
    let second := trackTerminalCommandInput first.1 more false
    trackTerminalCommandInput current (input ++ more) false =
      (second.1, first.2 ++ second.2) := by
  intro first second
  rw [← append_assoc] at short
  have read := keysOf_append (current.pendingEscape ++ input) more short 0 (Nat.zero_le _)
  rw [append_assoc] at read
  have firstIs : first = _ := track_pressed current input
  have secondIs : second = _ := track_pressed first.1 more
  have pending : first.1.pendingEscape = (keysOf (current.pendingEscape ++ input) 0).2 := by
    rw [firstIs]
    rfl
  have begun : first.1.begun.after (current.pressed input).submitted =
      (current.pressed input).settled := by
    have empty : (current.pressed input).state.pendingEscape = [] := pressed_pending _ rfl
    rw [firstIs]
    simp only [TerminalCommandLineTrackerState.begun, TrackRun.after, TrackRun.settled,
      TrackRun.broken, TrackRun.finish, append_nil, empty]
    rfl
  have whole : (current.pressed (input ++ more)).settled =
      (first.1.pressed more).settled.after (current.pressed input).submitted := by
    have both : current.pressed (input ++ more) =
        (keysOf (first.1.pendingEscape ++ more) 0).1.foldl TrackRun.press
          (current.pressed input) := by
      unfold TerminalCommandLineTrackerState.pressed
      rw [read, foldl_append, pending]
    rw [both, ← pressed_settled, ← begun, pressed_after]
    rfl
  rw [track_pressed, read, ← pending, secondIs, show first.2 = (current.pressed input).submitted by
    rw [firstIs]]
  have states := congrArg TrackRun.state whole
  exact Prod.ext (congrArg (fun state : TerminalCommandLineTrackerState =>
    { state with pendingEscape := (keysOf (first.1.pendingEscape ++ more) 0).2 }) states)
    (congrArg TrackRun.submitted whole)

/-- Calls one after the other, with all that they submit. -/
def trackAll (current : TerminalCommandLineTrackerState) :
    List (List Char) → TerminalCommandLineTrackerState × List (List Char)
  | [] => (current, [])
  | input :: rest =>
    let first := trackTerminalCommandInput current input false
    ((trackAll first.1 rest).1, first.2 ++ (trackAll first.1 rest).2)

theorem trackAll_flatten (rest : List (List Char)) (current : TerminalCommandLineTrackerState)
    (input : List Char) (short : ShortEscapes (current.pendingEscape ++ (input :: rest).flatten)) :
    trackAll current (input :: rest) =
      trackTerminalCommandInput current (input :: rest).flatten false := by
  induction rest generalizing current input with
  | nil => simp [trackAll]
  | cons next rest ih =>
    have cut := track_append current input (next :: rest).flatten short
    rw [flatten_cons, cut, ← ih]
    · rfl
    · obtain ⟨before, cut'⟩ := keysOf_suffix (current.pendingEscape ++ input) 0
      refine short.suffix ⟨before, ?_⟩
      have pending : (trackTerminalCommandInput current input false).1.pendingEscape =
          (keysOf (current.pendingEscape ++ input) 0).2 := by
        rw [track_pressed]
        rfl
      rw [pending, ← append_assoc, cut', flatten_cons (l := input), append_assoc]

end Calls

section Lines

theorem withoutLastWord_prefix (text : List Char) : withoutLastWord text <+: text := by
  unfold withoutLastWord
  dsimp only
  split
  · exact prefix_refl text
  · exact (List.rdropWhile_prefix _ _).trans (List.rdropWhile_prefix _ _)

theorem onChars_apply (edit : LineEdit) (before after : List Char) :
    edit.onChars (before ++ after) before.length =
      ((edit.apply ⟨before, after⟩).before ++ (edit.apply ⟨before, after⟩).after,
        (edit.apply ⟨before, after⟩).before.length) := by
  cases edit with
  | insert char => simp [LineEdit.onChars, LineEdit.apply]
  | deleteBefore =>
    simp only [LineEdit.onChars, LineEdit.apply]
    split
    next some' =>
      rw [eraseIdx_append_of_lt_length (by omega), eraseIdx_length_sub_one,
        length_dropLast]
    next none =>
      obtain rfl := eq_nil_of_length_eq_zero (Nat.eq_zero_of_not_pos none)
      rfl
  | deleteAfter =>
    simp [LineEdit.onChars, LineEdit.apply, eraseIdx_append_of_length_le (Nat.le_refl _)]
  | killBefore => simp [LineEdit.onChars, LineEdit.apply]
  | killAfter => simp [LineEdit.onChars, LineEdit.apply]
  | killWord =>
    obtain ⟨word, cut⟩ := withoutLastWord_prefix before
    simp only [LineEdit.onChars, LineEdit.apply, take_left, drop_left]
    have taken : (before ++ after).take (withoutLastWord before).length =
        withoutLastWord before := by
      have parts : before ++ after = withoutLastWord before ++ (word ++ after) := by
        rw [← append_assoc, cut]
      rw [parts, take_left]
    rw [taken]
  | left amount =>
    simp [LineEdit.onChars, LineEdit.apply, List.rdrop, List.rtake, ← append_assoc,
      take_append_drop]
  | right amount =>
    simp [LineEdit.onChars, LineEdit.apply, append_assoc, take_append_drop]
    omega
  | home => simp [LineEdit.onChars, LineEdit.apply]
  | last => simp [LineEdit.onChars, LineEdit.apply]

/-- A line as far as it is known, and whether text is being pasted. -/
structure Editor where
  line : Option EditLine
  paste : Bool

/-- What a key does to a line: the edit it means, as long as the effect of each is known. -/
def Editor.press (editor : Editor) (key : Key) : Editor :=
  match key.meaning editor.paste with
  | .enter | .interrupt => { line := some { before := [], after := [] }, paste := false }
  | .paste on => { editor with paste := on }
  | .change none => { editor with line := none }
  | .change (some edit) =>
    { editor with
      line := editor.line.bind fun line =>
        if edit.overfills (line.before.length + line.after.length) then none
        else some (edit.apply line) }

/-- The line of an editor is the one that is tracked. -/
structure Tracks (editor : Editor) (run : TrackRun) : Prop where
  paste : run.state.bracketedPaste = editor.paste
  known : run.state.synchronized = editor.line.isSome
  line : ∀ line, editor.line = some line →
    run.chars = line.before ++ line.after ∧ run.state.cursor = line.before.length

theorem press_tracks {editor : Editor} {run : TrackRun} (tracks : Tracks editor run) (key : Key) :
    Tracks (editor.press key) (run.press key) := by
  obtain ⟨⟨stale, cursor, synchronized, pending, paste⟩, chars, submitted⟩ := run
  obtain ⟨line, paste'⟩ := editor
  obtain ⟨rfl, known, same⟩ := tracks
  rw [press_means]
  unfold Editor.press
  dsimp only at known same ⊢
  cases key.meaning paste with
  | enter =>
    refine ⟨rfl, rfl, fun line is => ?_⟩
    obtain rfl := Option.some.inj is
    exact ⟨rfl, rfl⟩
  | interrupt =>
    refine ⟨rfl, rfl, fun line is => ?_⟩
    obtain rfl := Option.some.inj is
    exact ⟨rfl, rfl⟩
  | paste on => exact ⟨rfl, known, same⟩
  | change edit =>
    cases edit with
    | none => exact ⟨rfl, rfl, fun line is => absurd is.symm (Option.some_ne_none _)⟩
    | some edit =>
      cases line with
      | none =>
        obtain rfl : synchronized = false := known
        rw [means_lost rfl]
        exact ⟨rfl, rfl, fun line is => absurd is.symm (Option.some_ne_none _)⟩
      | some line =>
        obtain rfl : synchronized = true := known
        obtain ⟨rfl, rfl⟩ := same line rfl
        have edited := onChars_apply edit line.before line.after
        unfold TrackRun.means
        dsimp only [Option.bind_some]
        have known : ¬ (!true) = true := by decide
        rw [if_neg known, length_append]
        split
        · exact ⟨rfl, rfl, fun line is => absurd is.symm (Option.some_ne_none _)⟩
        · refine ⟨rfl, rfl, fun line' is => ?_⟩
          obtain rfl := Option.some.inj is
          exact ⟨congrArg Prod.fst edited, congrArg Prod.snd edited⟩

theorem pressed_tracks (keys : List Key) {editor : Editor} {run : TrackRun}
    (tracks : Tracks editor run) :
    Tracks (keys.foldl Editor.press editor) (keys.foldl TrackRun.press run) := by
  induction keys generalizing editor run with
  | nil => exact tracks
  | cons key keys ih => exact ih (press_tracks tracks key)

/-- What a state of the tracker keeps to between calls. -/
structure TerminalCommandLineTrackerState.Sound (state : TerminalCommandLineTrackerState) :
    Prop where
  cursor : state.cursor ≤ state.line.length
  lost : state.synchronized = false → state.line = []

def TerminalCommandLineTrackerState.editor (state : TerminalCommandLineTrackerState) : Editor :=
  { line :=
      if state.synchronized then
        some { before := state.line.take state.cursor, after := state.line.drop state.cursor }
      else none
    paste := state.bracketedPaste }

theorem begun_tracks {state : TerminalCommandLineTrackerState} (sound : state.Sound) :
    Tracks state.editor state.begun := by
  refine ⟨rfl, ?_, fun line is => ?_⟩
  · unfold TerminalCommandLineTrackerState.editor
    cases known : state.synchronized with
    | false => exact known
    | true => exact known
  · unfold TerminalCommandLineTrackerState.editor at is
    dsimp only at is
    split at is
    · obtain rfl := Option.some.inj is
      exact ⟨(take_append_drop _ _).symm, (length_take_of_le sound.cursor).symm⟩
    · exact absurd is.symm (Option.some_ne_none _)

theorem finish_tracks {editor : Editor} {run : TrackRun} (tracks : Tracks editor run)
    (pendingEscape : List Char) :
    (run.broken pendingEscape).finish.Sound ∧
      (run.broken pendingEscape).finish.editor = editor := by
  obtain ⟨⟨stale, cursor, synchronized, pending, paste⟩, chars, submitted⟩ := run
  obtain ⟨line, paste'⟩ := editor
  obtain ⟨rfl, known, same⟩ := tracks
  dsimp only at known same
  cases line with
  | none =>
    obtain rfl : synchronized = false := known
    exact ⟨⟨Nat.le_refl _, fun _ => rfl⟩, rfl⟩
  | some line =>
    obtain rfl : synchronized = true := known
    obtain ⟨rfl, rfl⟩ := same line rfl
    refine ⟨⟨?_, fun absent => absurd absent.symm Bool.false_ne_true⟩, ?_⟩
    · simp [TrackRun.broken, TrackRun.finish]
    · simp [TrackRun.broken, TrackRun.finish, TerminalCommandLineTrackerState.editor]

theorem track_sound {current : TerminalCommandLineTrackerState} (sound : current.Sound)
    (input : List Char) :
    (trackTerminalCommandInput current input false).1.Sound ∧
      (trackTerminalCommandInput current input false).1.editor =
        (keysOf (current.pendingEscape ++ input) 0).1.foldl Editor.press current.editor := by
  rw [track_pressed]
  exact finish_tracks (pressed_tracks _ (begun_tracks sound)) _

theorem trackAll_sound (inputs : List (List Char)) {current : TerminalCommandLineTrackerState}
    (sound : current.Sound) : (trackAll current inputs).1.Sound := by
  induction inputs generalizing current with
  | nil => exact sound
  | cons input rest ih => exact ih (track_sound sound input).1

/-- However a text is cut into calls, they submit and leave what one call with the whole text does;
after each of them the cursor is within the line; and the line is what the edits that the text means
make of it, as long as their effect is known. -/
theorem tracker_independent_of_calls {current : TerminalCommandLineTrackerState}
    (sound : current.Sound) (input : List Char) (rest : List (List Char))
    (short : ShortEscapes (current.pendingEscape ++ (input :: rest).flatten)) :
    trackAll current (input :: rest) =
        trackTerminalCommandInput current (input :: rest).flatten false ∧
      (∀ first later, input :: rest = first ++ later →
        (trackAll current first).1.cursor ≤ (trackAll current first).1.line.length) ∧
      let after := (trackAll current (input :: rest)).1
      let edited := (keysOf (current.pendingEscape ++ (input :: rest).flatten) 0).1.foldl
        Editor.press current.editor
      after.bracketedPaste = edited.paste ∧
        (after.synchronized = true → ∃ line, edited.line = some line ∧
          after.line = line.before ++ line.after ∧ after.cursor = line.before.length) ∧
        (after.synchronized = false → edited.line = none) := by
  have whole := trackAll_flatten rest current input short
  obtain ⟨kept, edited⟩ := track_sound sound (input :: rest).flatten
  rw [← whole] at kept edited
  refine ⟨whole, fun first later _ => (trackAll_sound first sound).cursor, ?_⟩
  dsimp only
  rw [← edited]
  refine ⟨rfl, fun known => ⟨_, if_pos known, (take_append_drop _ _).symm,
    (length_take_of_le kept.cursor).symm⟩, fun lost => if_neg ?_⟩
  rw [lost]
  exact Bool.false_ne_true

/-- A command whose arrow key is cut in two. -/
theorem sample_cut_arrow :
    trackAll emptyTerminalCommandLineTracker [['l', 'z', '\x1b'], ['[', 'D', '\x04', 's', '\r']] =
      trackTerminalCommandInput emptyTerminalCommandLineTracker
        ['l', 'z', '\x1b', '[', 'D', '\x04', 's', '\r'] false :=
  (@tracker_independent_of_calls emptyTerminalCommandLineTracker
    ⟨Nat.le_refl _, fun _ => rfl⟩ ['l', 'z', '\x1b'] [['[', 'D', '\x04', 's', '\r']] (by decide)).1

end Lines

end PortMate.CommandLine
