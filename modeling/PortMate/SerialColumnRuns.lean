import Mathlib.Data.List.Chain
import Mathlib.Tactic.Linarith
import PortMate.SerialColumnEvidence

namespace PortMate.SerialColumns

open List

namespace SerialColumnDetector

variable (d : SerialColumnDetector)

def modes : ScreenModes := ⟨d.bracketedPaste, d.alternateModes⟩

/-- The detector apart from where its parser is. -/
def core : SerialColumnDetector := { d with parser := .ground, csi := [], stringIsOsc := false }

def handle (now : ℚ) : SerialSymbol → SerialColumnDetector
  | .char byte => d.consumeGround byte
  | .control params final => d.control params final now
  | .reset => d.reset
  | .other => d.breakRedraw

def Lexes : ColumnLexer → Prop
  | .ground => d.parser = .ground
  | .escape => d.parser = .escape ∧ d.csi = []
  | .intermediate => d.parser = .escapeIntermediate
  | .csi params => d.parser = .csi ∧ d.csi = params
  | .string osc escaped =>
    d.parser = (if escaped then .stringEscape else .string) ∧ d.stringIsOsc = osc

variable {d}

theorem consumeGround_parserKept (byte : Nat) : (d.consumeGround byte).parser = d.parser := by
  unfold consumeGround
  split_ifs <;> rfl

theorem consume_lexed {lexer : ColumnLexer} (lexes : d.Lexes lexer) (byte : Nat) (now : ℚ) :
    (d.consume byte now).Lexes (lexByte lexer byte).1 ∧
      (d.consume byte now).core =
        ((lexByte lexer byte).2.foldl (fun d symbol => d.handle now symbol) d).core := by
  cases lexer with
  | string osc escaped =>
    obtain ⟨parser, rfl⟩ := lexes
    have inString : d.parser = .string ∨ d.parser = .stringEscape := by
      cases escaped
      · exact .inl parser
      · exact .inr parser
    have ends : d.parser = .stringEscape ↔ escaped = true := by
      cases escaped <;> simp [parser]
    unfold consume lexByte
    rw [if_pos inString]
    simp only [ends]
    split
    · exact ⟨rfl, rfl⟩
    · refine ⟨⟨?_, rfl⟩, rfl⟩
      simp only [decide_eq_true_eq]
  | ground =>
    have parser : d.parser = .ground := lexes
    unfold consume lexByte
    simp only [parser, reduceCtorEq, or_self, if_false]
    split
    · exact ⟨rfl, rfl⟩
    split
    · exact ⟨⟨rfl, rfl⟩, rfl⟩
    · exact ⟨(consumeGround_parserKept byte).trans parser, rfl⟩
  | escape =>
    obtain ⟨parser, csi⟩ := lexes
    unfold consume lexByte
    simp only [parser, reduceCtorEq, or_self, if_false]
    split
    · exact ⟨rfl, rfl⟩
    split
    · exact ⟨⟨rfl, rfl⟩, rfl⟩
    split
    · exact ⟨⟨rfl, csi⟩, rfl⟩
    split
    · exact ⟨⟨rfl, rfl⟩, rfl⟩
    split
    · exact ⟨rfl, rfl⟩
    split
    · exact ⟨rfl, rfl⟩
    · exact ⟨rfl, rfl⟩
  | intermediate =>
    have parser : d.parser = .escapeIntermediate := lexes
    unfold consume lexByte
    simp only [parser, reduceCtorEq, or_self, if_false]
    split
    · exact ⟨rfl, rfl⟩
    split
    · exact ⟨⟨rfl, rfl⟩, rfl⟩
    split
    · exact ⟨rfl, rfl⟩
    · exact ⟨parser, rfl⟩
  | csi params =>
    obtain ⟨parser, rfl⟩ := lexes
    unfold consume lexByte
    simp only [parser, reduceCtorEq, or_self, if_false]
    split
    · exact ⟨rfl, rfl⟩
    split
    · exact ⟨⟨rfl, rfl⟩, rfl⟩
    split
    · exact ⟨rfl, rfl⟩
    split
    · exact ⟨⟨rfl, rfl⟩, rfl⟩
    · exact ⟨rfl, rfl⟩

variable (on : Bool)

theorem setMode_modes (mode : Nat) : (d.setMode on mode).modes = d.modes.set on mode := by
  unfold setMode ScreenModes.set ScreenModes.isAlternate
  simp only [Bool.or_eq_true, decide_eq_true_eq, or_assoc]
  by_cases paste : mode = 2004
  · subst paste
    by_cases same : on = d.bracketedPaste <;> simp [same, modes, breakRedraw]
  · by_cases alternate : mode = 47 ∨ mode = 1047 ∨ mode = 1049
    · simp [paste, alternate, modes]
      rfl
    · simp [paste, alternate, modes]

theorem setMode_candidate (mode : Nat) :
    (d.setMode on mode).candidate = none ∨
      (d.setMode on mode).candidate = d.candidate ∧ (d.setMode on mode).modes = d.modes := by
  unfold setMode
  by_cases alternate : mode = 47 ∨ mode = 1047 ∨ mode = 1049
  · simp [alternate]
  · by_cases paste : mode = 2004 <;> by_cases same : on = d.bracketedPaste <;>
      simp [alternate, paste, same, modes, breakRedraw]

variable (changed : List Nat)

theorem setModes_modes :
    (changed.foldl (setMode on) d).modes = changed.foldl (ScreenModes.set on) d.modes := by
  induction changed generalizing d with
  | nil => rfl
  | cons mode changed ih => rw [foldl_cons, foldl_cons, ih, setMode_modes]

theorem setModes_candidate :
    (changed.foldl (setMode on) d).candidate = none ∨
      (changed.foldl (setMode on) d).candidate = d.candidate ∧
        (changed.foldl (setMode on) d).modes = d.modes := by
  induction changed generalizing d with
  | nil => exact .inr ⟨rfl, rfl⟩
  | cons mode changed ih =>
    rw [foldl_cons]
    obtain none | ⟨kept, modes⟩ := ih (d := d.setMode on mode)
    · exact .inl none
    · obtain none | ⟨keptFirst, modesFirst⟩ := d.setMode_candidate on mode
      · exact .inl (kept.trans none)
      · exact .inr ⟨kept.trans keptFirst, modes.trans modesFirst⟩

theorem setMode_lastAt (mode : Nat) : (d.setMode on mode).lastAt = d.lastAt := by
  unfold setMode breakRedraw
  dsimp only
  split_ifs <;> rfl

theorem setModes_lastAt : (changed.foldl (setMode on) d).lastAt = d.lastAt := by
  induction changed generalizing d with
  | nil => rfl
  | cons mode changed ih => rw [foldl_cons, ih, setMode_lastAt]

theorem modes_eq_shell : d.modes = .shell ↔ d.bracketedPaste = true ∧ d.alternateModes = [] := by
  unfold modes ScreenModes.shell
  rw [ScreenModes.mk.injEq]

inductive Handled (d : SerialColumnDetector) (now : ℚ) (symbol : SerialSymbol) :
    SerialColumnDetector → Prop
  | start (shell : d.modes = .shell) (begins : symbol = .char 13) :
    Handled d now symbol { d with redraw := .lineStart, right := 0 }
  | erase (shell : d.modes = .shell) (state : d.redraw = .lineStart) (erases : symbol.IsErase) :
    Handled d now symbol d
  | up (shell : d.modes = .shell) (state : d.redraw = .lineStart) (goesUp : symbol.IsUp) :
    Handled d now symbol { d with redraw := .up }
  | move {columns : Nat} (shell : d.modes = .shell) (state : d.redraw = .up ∨ d.redraw = .right)
      (moves : symbol.moves? = some columns) (fits : d.right + columns < maxColumns) :
    Handled d now symbol { d with right := d.right + columns, redraw := .right }
  | back (state : d.redraw = .right) (goesBack : symbol = .char 8) :
    Handled d now symbol { d with redraw := .erase }
  | complete (shell : d.modes = .shell) (state : d.redraw = .right ∨ d.redraw = .erase)
      (wide : 19 ≤ d.right) (erases : symbol.IsErase) :
    Handled d now symbol (d.observeRedraw now).breakRedraw
  | broken {d' : SerialColumnDetector} (idle : d'.redraw = .idle)
      (kept : d'.candidate = none ∨ d'.candidate = d.candidate ∧ d'.modes = d.modes)
      (lastAt : d'.lastAt = none ∨ d'.lastAt = d.lastAt) :
    Handled d now symbol d'

theorem control_handled (params : List Char) (final : Char) (now : ℚ) :
    Handled d now (.control params final) (d.control params final now) := by
  have breaks : Handled d now (.control params final) d.breakRedraw :=
    .broken rfl (.inr ⟨rfl, rfl⟩) (.inr rfl)
  unfold control
  split
  next changed _ =>
    exact .broken rfl (d.setModes_candidate _ changed) (.inr (d.setModes_lastAt _ changed))
  next =>
    split
    · exact .broken rfl (.inl rfl) (.inl rfl)
    split
    · exact breaks
    next on =>
      simp only [Bool.or_eq_true, Bool.not_eq_true', not_or, Bool.not_eq_false,
        List.isEmpty_iff] at on
      obtain ⟨⟨paste, alternates⟩, digits⟩ := on
      have shell : d.modes = .shell := modes_eq_shell.mpr ⟨paste, alternates⟩
      have value : ∀ wanted, final = wanted →
          SerialSymbol.value? wanted (.control params final) = some (numberOf params) :=
        fun wanted same => if_pos ⟨same, digits⟩
      dsimp only
      split
      next here => exact .up shell here.2.2 ⟨_, here.2.1, value 'A' here.1⟩
      split
      next here =>
        have moves : SerialSymbol.moves? (.control params final) =
            some (if numberOf params = 0 then 1 else numberOf params) := by
          rw [SerialSymbol.moves?, value 'C' here.1]
          rfl
        by_cases far : maxColumns ≤ d.right + (if numberOf params = 0 then 1 else numberOf params)
        · rw [if_pos far]
          exact .broken rfl (.inr ⟨rfl, rfl⟩) (.inr rfl)
        · rw [if_neg far]
          exact .move shell here.2 moves (Nat.lt_of_not_le far)
      split
      next here =>
        have erases : SerialSymbol.IsErase (.control params final) :=
          (value 'K' here.1).trans (congrArg some here.2)
        split
        next state => exact .erase shell state erases
        split
        next ends => exact .complete shell ends.1 ends.2 erases
        · exact breaks
      · exact breaks

theorem handle_handled (now : ℚ) (symbol : SerialSymbol) :
    Handled d now symbol (d.handle now symbol) := by
  cases symbol with
  | char byte =>
    unfold handle consumeGround
    dsimp only
    split
    next here => exact .start (modes_eq_shell.mpr ⟨here.1, here.2.1⟩) (congrArg _ here.2.2)
    split
    next here => exact .back here.2 (congrArg _ here.1)
    · exact .broken rfl (.inr ⟨rfl, rfl⟩) (.inr rfl)
  | control params final => exact control_handled params final now
  | reset => exact .broken rfl (.inl rfl) (.inl rfl)
  | other => exact .broken rfl (.inr ⟨rfl, rfl⟩) (.inr rfl)

theorem handle_modes (now : ℚ) (symbol : SerialSymbol) :
    (d.handle now symbol).modes = d.modes.after symbol := by
  cases symbol with
  | char byte =>
    unfold handle consumeGround
    dsimp only
    split_ifs <;> rfl
  | control params final =>
    unfold handle control ScreenModes.after
    dsimp only
    cases if final = 'h' ∨ final = 'l' then modesOf params else none with
    | some changed => exact d.setModes_modes _ changed
    | none =>
      dsimp only
      split_ifs <;> rfl
  | reset => rfl
  | other => rfl

variable {symbol : SerialSymbol}

theorem value?_some {wanted : Char} {value : Nat} (known : symbol.value? wanted = some value) :
    ∃ params, symbol = .control params wanted ∧ params.all Char.isDigit = true ∧
      numberOf params = value := by
  cases symbol with
  | control params final =>
    dsimp only [SerialSymbol.value?] at known
    split at known
    next here =>
      obtain ⟨rfl, digits⟩ := here
      exact ⟨params, rfl, digits, Option.some.inj known⟩
    next => cases known
  | char | reset | other => cases known

theorem handle_erase (shell : d.modes = .shell) (state : d.redraw = .lineStart)
    (erases : symbol.IsErase) (now : ℚ) : d.handle now symbol = d := by
  obtain ⟨params, rfl, digits, value⟩ := value?_some erases
  obtain ⟨paste, alternates⟩ := modes_eq_shell.mp shell
  simp [handle, control, paste, alternates, digits, value, state]

theorem handle_up (shell : d.modes = .shell) (state : d.redraw = .lineStart) (goesUp : symbol.IsUp)
    (now : ℚ) : d.handle now symbol = { d with redraw := .up } := by
  obtain ⟨rows, few, known⟩ := goesUp
  obtain ⟨params, rfl, digits, rfl⟩ := value?_some known
  obtain ⟨paste, alternates⟩ := modes_eq_shell.mp shell
  simp [handle, control, paste, alternates, digits, state, few]

theorem handle_move (shell : d.modes = .shell) (state : d.redraw = .up ∨ d.redraw = .right)
    {columns : Nat} (moves : symbol.moves? = some columns) (fits : d.right + columns < maxColumns)
    (now : ℚ) : d.handle now symbol = { d with right := d.right + columns, redraw := .right } := by
  obtain ⟨value, known, rfl⟩ := Option.map_eq_some_iff.mp moves
  obtain ⟨params, rfl, digits, rfl⟩ := value?_some known
  obtain ⟨paste, alternates⟩ := modes_eq_shell.mp shell
  have near : ¬ maxColumns ≤ d.right + (if numberOf params = 0 then 1 else numberOf params) :=
    Nat.not_le.mpr fits
  simp [handle, control, paste, alternates, digits, state, near]

theorem handle_complete (shell : d.modes = .shell) (state : d.redraw = .right ∨ d.redraw = .erase)
    (wide : 19 ≤ d.right) (erases : symbol.IsErase) (now : ℚ) :
    d.handle now symbol = (d.observeRedraw now).breakRedraw := by
  obtain ⟨params, rfl, digits, value⟩ := value?_some erases
  obtain ⟨paste, alternates⟩ := modes_eq_shell.mp shell
  obtain state | state := state <;>
    simp [handle, control, paste, alternates, digits, value, state, wide]

theorem handle_follows (shell : d.modes = .shell) {earlier : List SerialSymbol}
    {state : RedrawState} {right : Nat} (begun : RedrawPart (earlier ++ [symbol]) state right)
    (followed : ∀ state right, RedrawPart earlier state right → d.redraw = state ∧ d.right = right)
    (now : ℚ) : (d.handle now symbol).redraw = state ∧ (d.handle now symbol).right = right := by
  generalize same : earlier ++ [symbol] = part at begun
  cases begun with
  | start =>
    obtain ⟨rfl, rfl⟩ : earlier = [] ∧ symbol = .char 13 := by
      cases earlier with
      | nil => exact ⟨rfl, (List.cons.inj same).1⟩
      | cons => simp at same
    obtain ⟨paste, alternates⟩ := modes_eq_shell.mp shell
    simp [handle, consumeGround, paste, alternates]
  | erase begun erases =>
    obtain ⟨rfl, last⟩ := append_inj' same rfl
    obtain rfl := singleton_inj.mp last
    obtain ⟨isState, isRight⟩ := followed _ _ begun
    rw [handle_erase shell isState erases]
    exact ⟨isState, isRight⟩
  | up begun goesUp =>
    obtain ⟨rfl, last⟩ := append_inj' same rfl
    obtain rfl := singleton_inj.mp last
    obtain ⟨isState, isRight⟩ := followed _ _ begun
    rw [handle_up shell isState goesUp]
    exact ⟨rfl, isRight⟩
  | move begun before moves fits =>
    obtain ⟨rfl, last⟩ := append_inj' same rfl
    obtain rfl := singleton_inj.mp last
    obtain ⟨isState, rfl⟩ := followed _ _ begun
    rw [handle_move shell (isState ▸ before) moves fits]
    exact ⟨rfl, rfl⟩
  | back begun =>
    obtain ⟨rfl, last⟩ := append_inj' same rfl
    obtain rfl := singleton_inj.mp last
    obtain ⟨isState, isRight⟩ := followed _ _ begun
    simp [handle, consumeGround, isState, isRight]

end SerialColumnDetector

section Steadiness

variable {before during : List TimedSymbol}

theorem modesAfter_concat (history : List TimedSymbol) (timed : TimedSymbol) :
    modesAfter (history ++ [timed]) = (modesAfter history).after timed.symbol := by
  unfold modesAfter
  rw [foldl_append]
  rfl

theorem Steady.whole (steady : Steady before during) : modesAfter (before ++ during) = .shell :=
  steady during (prefix_refl _)

theorem Steady.concat (steady : Steady before during) {timed : TimedSymbol}
    (modes : modesAfter (before ++ (during ++ [timed])) = .shell) :
    Steady before (during ++ [timed]) := by
  intro part inside
  obtain rfl | inside := prefix_concat_iff.mp inside
  · exact modes
  · exact steady part inside

theorem Steady.of_concat {timed : TimedSymbol} (steady : Steady before (during ++ [timed])) :
    Steady before during := fun part inside => steady part (inside.trans (prefix_append _ _))

theorem Steady.behind {first : List TimedSymbol} (steady : Steady before (first ++ during)) :
    Steady (before ++ first) during := by
  intro part inside
  rw [append_assoc]
  exact steady _ (prefix_append_right_inj first |>.mpr inside)

theorem steady_nil (modes : modesAfter before = .shell) : Steady before [] := by
  intro part inside
  rw [prefix_nil.mp inside, append_nil]
  exact modes

theorem Unpaused.concat {timed : TimedSymbol} (unpaused : Unpaused (during ++ [timed])) :
    Unpaused during ∧ ∀ last ∈ during.getLast?, timed.time - last.time ≤ sequenceIdleMs := by
  obtain ⟨earlier, -, between⟩ := isChain_append.mp unpaused
  exact ⟨earlier, fun last isLast => between last isLast timed rfl⟩

end Steadiness

/-- The redraw that the detector is in is at the end of a part of the history. -/
def InRedraw (d : SerialColumnDetector) (during : List TimedSymbol) : Prop :=
  d.redraw ≠ .idle → ∃ before part, during = before ++ part ∧
    RedrawPart (part.map TimedSymbol.symbol) d.redraw d.right

/-- What a candidate stands for: a redraw of its width, none of another width since, and another of
its width where there are two observations. -/
structure Evidence (d : SerialColumnDetector) (candidate : ColumnCandidate)
    (before first rest : List TimedSymbol) : Prop where
  steady : Steady before (first ++ rest)
  redraw : Redraw first candidate.columns
  noOther : NoOther candidate.columns rest
  inRedraw : InRedraw d rest
  again : 2 ≤ candidate.observations → ∃ between second behind,
    rest = between ++ second ++ behind ∧ Redraw second candidate.columns ∧
      ∀ last ∈ second.getLast?, last.time = candidate.seenAt

/-- The detector after a history of symbols, at the time of the last observation. -/
structure Tracks (clock : Option ℚ) (history : List TimedSymbol) (d : SerialColumnDetector) :
    Prop where
  modes : d.modes = modesAfter history
  lastAt : d.lastAt = none ∨ d.lastAt = clock
  past : ∀ timed ∈ history, ∃ now ∈ clock, timed.time ≤ now
  begun : d.redraw ≠ .idle → ∃ before part, history = before ++ part ∧ Steady before part ∧
    RedrawPart (part.map TimedSymbol.symbol) d.redraw d.right
  followed : ∀ before part state right, history = before ++ part →
    RedrawPart (part.map TimedSymbol.symbol) state right → Steady before part → Unpaused part →
    (∀ now ∈ clock, ∀ last ∈ part.getLast?, now - last.time ≤ sequenceIdleMs) →
    d.redraw = state ∧ d.right = right
  bounded : ∀ candidate ∈ d.candidate, 20 ≤ candidate.columns ∧ candidate.columns ≤ maxColumns
  recent : ∀ candidate ∈ d.candidate, ∀ now ∈ clock, now - candidate.seenAt ≤ evidenceWindowMs
  evidence : ∀ candidate ∈ d.candidate, ∃ before first rest, history = before ++ first ++ rest ∧
    Evidence d candidate before first rest

section Steps

variable {now : ℚ} {history : List TimedSymbol} {d : SerialColumnDetector} {symbol : SerialSymbol}

theorem RedrawPart.filled {part : List SerialSymbol} {state : RedrawState} {right : Nat}
    (begun : RedrawPart part state right) : part ≠ [] := by
  cases begun <;> simp

theorem RedrawPart.at_start {part : List SerialSymbol} {right : Nat}
    (begun : RedrawPart part .lineStart right) : right = 0 := by
  cases begun <;> rfl

variable {d' : SerialColumnDetector}

theorem InRedraw.handled {during : List TimedSymbol} (inRedraw : InRedraw d during)
    (handled : d.Handled now symbol d') : InRedraw d' (during ++ [⟨symbol, now⟩]) := by
  have goesOn : ∀ {state right}, d.redraw ≠ .idle →
      (∀ part, RedrawPart part d.redraw d.right → RedrawPart (part ++ [symbol]) state right) →
      ∃ before part, during ++ [⟨symbol, now⟩] = before ++ part ∧
        RedrawPart (part.map TimedSymbol.symbol) state right := by
    intro state right active goesOn
    obtain ⟨before, part, rfl, begun⟩ := inRedraw active
    refine ⟨before, part ++ [⟨symbol, now⟩], append_assoc _ _ _, ?_⟩
    rw [map_append]
    exact goesOn _ begun
  intro active
  cases handled with
  | start shell begins =>
    subst begins
    exact ⟨during, [⟨.char 13, now⟩], rfl, .start⟩
  | erase shell state erases =>
    refine goesOn active fun part begun => ?_
    rw [state] at begun ⊢
    have right := begun.at_start
    rw [right] at begun ⊢
    exact begun.erase erases
  | up shell state goesUp =>
    refine goesOn (by simp [state]) fun part begun => ?_
    rw [state] at begun
    have right := begun.at_start
    change RedrawPart _ _ d.right
    rw [right] at begun ⊢
    exact begun.up goesUp
  | move shell state moves fits =>
    exact goesOn (by obtain state | state := state <;> simp [state]) fun part begun =>
      begun.move state moves fits
  | back state goesBack =>
    subst goesBack
    refine goesOn (by simp [state]) fun part begun => ?_
    rw [state] at begun
    exact begun.back
  | complete => exact absurd rfl active
  | broken idle => exact absurd idle active

theorem Tracks.completes (tracks : Tracks (some now) history d) {before part : List TimedSymbol}
    (split : history = before ++ part) (steady : Steady before part) {width : Nat}
    (redraw : Redraw (part ++ [⟨symbol, now⟩]) width)
    (unpaused : Unpaused (part ++ [⟨symbol, now⟩])) (wide : 20 ≤ width)
    (bounded : width ≤ maxColumns) :
    ∃ candidate, (d.handle now symbol).candidate = some candidate ∧ candidate.columns = width := by
  obtain ⟨erases, redraw⟩ := redraw
  obtain ⟨earlier, last, state, right, same, begun, ends, isErase, rfl⟩ :=
    RedrawPart.of_redraw redraw bounded
  rw [map_append] at same
  obtain ⟨rfl, isLast⟩ := append_inj' same rfl
  obtain rfl : symbol = last := singleton_inj.mp isLast
  obtain ⟨unpaused, pause⟩ := unpaused.concat
  obtain ⟨rfl, rfl⟩ := tracks.followed before part state right split begun steady unpaused
    fun time isNow last isLast => by
      obtain rfl := Option.some.inj isNow
      exact pause last isLast
  have shell : d.modes = .shell := tracks.modes.trans (split ▸ steady.whole)
  rw [d.handle_complete shell ends (by omega) isErase]
  exact ⟨_, rfl, rfl⟩

theorem noOther_nil (columns : Nat) : NoOther columns [] := by
  intro before other behind width split redraw
  obtain ⟨-, rfl⟩ : before = [] ∧ other = [] := by
    have := split.symm
    simp only [append_eq_nil_iff] at this
    exact this.1
  obtain ⟨erases, up, moves, steps, back, last, same, -⟩ := redraw
  simp at same

theorem Tracks.noOther (tracks : Tracks (some now) history d) {before rest : List TimedSymbol}
    (split : history = before ++ rest) (steady : Steady before rest) {columns : Nat}
    (noOther : NoOther columns rest)
    (same : ∀ candidate ∈ (d.handle now symbol).candidate, candidate.columns = columns) :
    NoOther columns (rest ++ [⟨symbol, now⟩]) := by
  intro front other behind width whole redraw unpaused wide bounded
  obtain rfl | ⟨behind, last, rfl⟩ := eq_nil_or_concat' behind
  · obtain rfl | ⟨other, last, rfl⟩ := eq_nil_or_concat' other
    · obtain ⟨erases, up, moves, steps, back, last, same, -⟩ := redraw
      simp at same
    · rw [append_nil, ← append_assoc] at whole
      obtain ⟨rfl, isLast⟩ := append_inj' whole rfl
      obtain rfl := singleton_inj.mp isLast
      rw [← append_assoc] at split
      obtain ⟨candidate, found, rfl⟩ := tracks.completes split steady.behind redraw unpaused wide
        bounded
      exact same candidate found
  · rw [← append_assoc] at whole
    obtain ⟨rfl, -⟩ := append_inj' whole rfl
    exact noOther front other behind width rfl redraw unpaused wide bounded

theorem SerialColumnDetector.Handled.lastAt (handled : d.Handled now symbol d') :
    d'.lastAt = none ∨ d'.lastAt = d.lastAt := by
  cases handled with
  | broken idle kept lastAt => exact lastAt
  | start | erase | up | move | back | complete => exact .inr rfl

theorem SerialColumnDetector.Handled.active (handled : d.Handled now symbol d')
    (active : d'.redraw ≠ .idle) : d'.modes = d.modes ∧ (d.redraw ≠ .idle ∨ d.modes = .shell) := by
  cases handled with
  | start shell | erase shell | up shell | move shell => exact ⟨rfl, .inr shell⟩
  | back state => exact ⟨rfl, .inl (by simp [state])⟩
  | complete => exact absurd rfl active
  | broken idle => exact absurd idle active

theorem SerialColumnDetector.Handled.candidate (handled : d.Handled now symbol d') :
    d'.candidate = none ∨ (d'.candidate = d.candidate ∧ d'.modes = d.modes) ∨
      d' = (d.observeRedraw now).breakRedraw ∧ (d.redraw = .right ∨ d.redraw = .erase) ∧
        19 ≤ d.right ∧ symbol.IsErase := by
  cases handled with
  | broken idle kept => exact kept.imp_right .inl
  | complete shell state wide erases => exact .inr (.inr ⟨rfl, state, wide, erases⟩)
  | start | erase | up | move | back => exact .inr (.inl ⟨rfl, rfl⟩)

theorem Tracks.shell (tracks : Tracks clock history d) (active : d.redraw ≠ .idle) :
    d.modes = .shell := by
  obtain ⟨before, part, rfl, steady, -⟩ := tracks.begun active
  exact tracks.modes.trans steady.whole

variable (tracks : Tracks (some now) history d)

include tracks

theorem Tracks.begun_step (active : (d.handle now symbol).redraw ≠ .idle) :
    ∃ before part, history ++ [⟨symbol, now⟩] = before ++ part ∧ Steady before part ∧
      RedrawPart (part.map TimedSymbol.symbol) (d.handle now symbol).redraw
        (d.handle now symbol).right := by
  have handled := d.handle_handled now symbol
  obtain ⟨modes, before⟩ := handled.active active
  have shell : d.modes = .shell := before.elim tracks.shell id
  obtain ⟨before, part, rfl, steady, inRedraw⟩ :
      ∃ before part, history = before ++ part ∧ Steady before part ∧ InRedraw d part := by
    by_cases idle : d.redraw = .idle
    · exact ⟨history, [], (append_nil _).symm, steady_nil (tracks.modes.symm.trans shell),
        fun active => absurd idle active⟩
    · obtain ⟨before, part, split, steady, begun⟩ := tracks.begun idle
      exact ⟨before, part, split, steady, fun _ => ⟨[], part, rfl, begun⟩⟩
  obtain ⟨front, redraw, whole, begun⟩ := inRedraw.handled handled active
  refine ⟨before ++ front, redraw, ?_, ?_, begun⟩
  · rw [append_assoc, whole, append_assoc]
  · apply Steady.behind
    rw [← whole]
    apply steady.concat
    rw [← append_assoc, modesAfter_concat, ← tracks.modes, ← d.handle_modes now]
    exact modes.trans shell

theorem Tracks.followed_step {before part : List TimedSymbol} {state : RedrawState} {right : Nat}
    (split : history ++ [⟨symbol, now⟩] = before ++ part)
    (begun : RedrawPart (part.map TimedSymbol.symbol) state right) (steady : Steady before part)
    (unpaused : Unpaused part) :
    (d.handle now symbol).redraw = state ∧ (d.handle now symbol).right = right := by
  obtain rfl | ⟨part, last, rfl⟩ := eq_nil_or_concat' part
  · exact absurd rfl begun.filled
  · rw [← append_assoc] at split
    obtain ⟨rfl, isLast⟩ := append_inj' split rfl
    obtain rfl := singleton_inj.mp isLast
    obtain ⟨unpaused, pause⟩ := unpaused.concat
    have shell : d.modes = .shell := tracks.modes.trans steady.of_concat.whole
    rw [map_append] at begun
    refine d.handle_follows shell begun (fun state right begun => ?_) now
    refine tracks.followed before part state right rfl begun steady.of_concat unpaused ?_
    intro time isNow last isLast
    obtain rfl := Option.some.inj isNow
    exact pause last isLast

theorem Tracks.bounded_step :
    ∀ candidate ∈ (d.handle now symbol).candidate,
      20 ≤ candidate.columns ∧ candidate.columns ≤ maxColumns := by
  intro candidate mem
  obtain none | ⟨kept, -⟩ | ⟨done, state, wide, -⟩ := (d.handle_handled now symbol).candidate
  · rw [none] at mem
    cases mem
  · exact tracks.bounded candidate (kept ▸ mem)
  · rw [done] at mem
    cases mem
    have active : d.redraw ≠ .idle := by obtain state | state := state <;> simp [state]
    obtain ⟨before, part, -, -, begun⟩ := tracks.begun active
    exact ⟨Nat.succ_le_succ wide, begun.bounded⟩

theorem Tracks.recent_step :
    ∀ candidate ∈ (d.handle now symbol).candidate, ∀ time ∈ some now,
      time - candidate.seenAt ≤ evidenceWindowMs := by
  intro candidate mem time isNow
  obtain none | ⟨kept, -⟩ | ⟨done, -⟩ := (d.handle_handled now symbol).candidate
  · rw [none] at mem
    cases mem
  · exact tracks.recent candidate (kept ▸ mem) time isNow
  · rw [done] at mem
    cases mem
    obtain rfl := Option.some.inj isNow
    change now - now ≤ 120000
    rw [sub_self]
    norm_num

theorem Tracks.steady_step {before during : List TimedSymbol} (split : history = before ++ during)
    (steady : Steady before during) (modes : (d.handle now symbol).modes = d.modes) :
    Steady before (during ++ [⟨symbol, now⟩]) := by
  apply steady.concat
  rw [← append_assoc, ← split, modesAfter_concat, ← tracks.modes, ← d.handle_modes now, modes,
    tracks.modes, split]
  exact steady.whole

theorem Tracks.evidence_step :
    ∀ candidate ∈ (d.handle now symbol).candidate, ∃ before first rest,
      history ++ [⟨symbol, now⟩] = before ++ first ++ rest ∧
        Evidence (d.handle now symbol) candidate before first rest := by
  intro candidate mem
  have handled := d.handle_handled now symbol
  obtain none | ⟨kept, modes⟩ | ⟨done, state, wide, erases⟩ := handled.candidate
  · rw [none] at mem
    cases mem
  · obtain ⟨before, first, rest, split, evidence⟩ := tracks.evidence candidate (kept ▸ mem)
    have whole : history = before ++ (first ++ rest) := by rw [split, append_assoc]
    refine ⟨before, first, rest ++ [⟨symbol, now⟩], ?_, ?_, evidence.redraw, ?_,
      evidence.inRedraw.handled handled, ?_⟩
    · rw [split, append_assoc _ rest]
    · rw [← append_assoc]
      exact tracks.steady_step whole evidence.steady modes
    · refine tracks.noOther split evidence.steady.behind evidence.noOther fun found isFound => ?_
      have same : found = candidate := Option.some.inj (isFound.symm.trans mem)
      rw [same]
    · intro twice
      obtain ⟨between, second, behind, rfl, redraw, seenAt⟩ := evidence.again twice
      exact ⟨between, second, behind ++ [⟨symbol, now⟩], append_assoc _ _ _, redraw, seenAt⟩
  · have active : d.redraw ≠ .idle := by obtain state | state := state <;> simp [state]
    have modes : (d.handle now symbol).modes = d.modes := by rw [done]; rfl
    have idle : (d.handle now symbol).redraw = .idle := by rw [done]; rfl
    have ended : ∀ part : List TimedSymbol,
        RedrawPart (part.map TimedSymbol.symbol) d.redraw d.right →
          Redraw (part ++ [⟨symbol, now⟩]) (d.right + 1) := by
      intro part begun
      unfold Redraw
      rw [map_append]
      exact begun.complete state erases
    have found : candidate = ⟨⟨d.right + 1, d.candidate.elim 1 fun earlier =>
        if earlier.columns = d.right + 1 then min 3 (earlier.observations + 1) else 1⟩, now⟩ := by
      rw [done] at mem
      exact (Option.some.inj mem).symm
    have columns : candidate.columns = d.right + 1 := by rw [found]
    have seenAt : candidate.seenAt = now := by rw [found]
    by_cases same : ∃ earlier ∈ d.candidate, earlier.columns = d.right + 1
    · obtain ⟨earlier, isEarlier, same⟩ := same
      obtain ⟨before, first, rest, split, evidence⟩ := tracks.evidence earlier isEarlier
      have whole : history = before ++ (first ++ rest) := by rw [split, append_assoc]
      refine ⟨before, first, rest ++ [⟨symbol, now⟩], ?_, ?_, ?_, ?_, fun active => absurd idle active,
        fun _ => ?_⟩
      · rw [split, append_assoc _ rest]
      · rw [← append_assoc]
        exact tracks.steady_step whole evidence.steady modes
      · rw [columns, ← same]
        exact evidence.redraw
      · refine tracks.noOther split evidence.steady.behind ?_ fun other isOther => ?_
        · rw [columns, ← same]
          exact evidence.noOther
        · have same : other = candidate := Option.some.inj (isOther.symm.trans mem)
          rw [same]
      · obtain ⟨between, part, rfl, begun⟩ := evidence.inRedraw active
        refine ⟨between, part ++ [⟨symbol, now⟩], [], ?_, columns ▸ ended part begun, ?_⟩
        · rw [append_nil, append_assoc]
        · intro last isLast
          rw [getLast?_concat] at isLast
          rw [← Option.some.inj isLast, seenAt]
    · obtain ⟨before, part, split, steady, begun⟩ := tracks.begun active
      refine ⟨before, part ++ [⟨symbol, now⟩], [], ?_, ?_, columns ▸ ended part begun,
        noOther_nil _, fun active => absurd idle active, fun twice => absurd twice ?_⟩
      · rw [split, append_nil, append_assoc]
      · rw [append_nil]
        exact tracks.steady_step split steady modes
      · have once : candidate.observations = 1 := by
          rw [found]
          cases earlier : d.candidate with
          | none => rfl
          | some earlier' =>
            exact if_neg fun columns => same ⟨earlier', earlier, columns⟩
        omega

theorem Tracks.step (symbol : SerialSymbol) :
    Tracks (some now) (history ++ [⟨symbol, now⟩]) (d.handle now symbol) where
  modes := by rw [modesAfter_concat, ← tracks.modes, d.handle_modes]
  lastAt := by
    obtain none | same := (d.handle_handled now symbol).lastAt
    · exact .inl none
    · rw [same]
      exact tracks.lastAt
  past timed mem := by
    obtain mem | mem := mem_append.mp mem
    · exact tracks.past timed mem
    · obtain rfl := mem_singleton.mp mem
      exact ⟨now, rfl, le_refl now⟩
  begun := tracks.begun_step
  followed before part state right split begun steady unpaused _ :=
    tracks.followed_step split begun steady unpaused
  bounded := tracks.bounded_step
  recent := tracks.recent_step
  evidence := tracks.evidence_step

end Steps

section Observations

variable {clock : Option ℚ} {now : ℚ} {history : List TimedSymbol} {d : SerialColumnDetector}

theorem breakIdle_spec :
    d.breakIdle now = d ∨ d.breakIdle now = d.breakRedraw ∧
      ∃ last, d.lastAt = some last ∧ (now < last ∨ sequenceIdleMs < now - last) := by
  unfold SerialColumnDetector.breakIdle
  split
  next last known =>
    split
    next idle => exact .inr ⟨rfl, last, known, idle⟩
    next => exact .inl rfl
  next => exact .inl rfl

theorem dropOld_spec :
    d.dropOld now = { d with candidate := none } ∨ d.dropOld now = d ∧
      ∀ candidate ∈ d.candidate, now - candidate.seenAt ≤ evidenceWindowMs := by
  unfold SerialColumnDetector.dropOld
  split
  next candidate known =>
    split
    next => exact .inl rfl
    next fresh =>
      refine .inr ⟨rfl, fun other isOther => ?_⟩
      obtain rfl : candidate = other := Option.some.inj (known.symm.trans isOther)
      exact not_lt.mp (not_or.mp fresh).2
  next known => exact .inr ⟨rfl, fun other isOther => absurd (known.symm.trans isOther) nofun⟩

variable {d' : SerialColumnDetector}

theorem InRedraw.same {during : List TimedSymbol} (inRedraw : InRedraw d during)
    (redraw : d'.redraw = .idle ∨ d'.redraw = d.redraw ∧ d'.right = d.right) :
    InRedraw d' during := by
  intro active
  obtain idle | ⟨redraw, right⟩ := redraw
  · exact absurd idle active
  · rw [redraw] at active
    rw [redraw, right]
    exact inRedraw active

theorem Tracks.later (tracks : Tracks clock history d) (later : ∀ earlier ∈ clock, earlier ≤ now)
    (modes : d'.modes = d.modes) (lastAt : d'.lastAt = some now)
    (redraw : d'.redraw = .idle ∧ (∃ last, d.lastAt = some last ∧ (now < last ∨ sequenceIdleMs < now - last)) ∨ d'.redraw = d.redraw ∧ d'.right = d.right)
    (candidate : d'.candidate = none ∨ d'.candidate = d.candidate ∧ ∀ candidate ∈ d.candidate, now - candidate.seenAt ≤ evidenceWindowMs) :
    Tracks (some now) history d' := by
  have either := redraw.imp_left And.left
  have same : ∀ candidate ∈ d'.candidate, candidate ∈ d.candidate ∧
      now - candidate.seenAt ≤ evidenceWindowMs := by
    intro found mem
    obtain none | ⟨kept, fresh⟩ := candidate
    · rw [none] at mem
      cases mem
    · rw [kept] at mem
      exact ⟨mem, fresh found mem⟩
  refine ⟨modes.trans tracks.modes, .inr lastAt, fun timed mem => ?_, fun active => ?_, ?_,
    fun candidate mem => tracks.bounded candidate (same candidate mem).1,
    fun candidate mem time isNow => ?_, fun candidate mem => ?_⟩
  · obtain ⟨earlier, isEarlier, past⟩ := tracks.past timed mem
    exact ⟨now, rfl, past.trans (later earlier isEarlier)⟩
  · obtain idle | ⟨isRedraw, isRight⟩ := either
    · exact absurd idle active
    · rw [isRedraw] at active
      rw [isRedraw, isRight]
      exact tracks.begun active
  · intro before part state right split begun steady unpaused recent
    obtain ⟨-, last, isLast, pause⟩ | ⟨isRedraw, isRight⟩ := redraw
    · exfalso
      have clockAt : clock = some last := by
        obtain none | atClock := tracks.lastAt
        · rw [none] at isLast
          cases isLast
        · exact atClock.symm.trans isLast
      obtain rfl | ⟨part, timed, rfl⟩ := eq_nil_or_concat' part
      · exact begun.filled rfl
      obtain ⟨time, isTime, past⟩ := tracks.past timed (by rw [split]; simp)
      obtain rfl : last = time := Option.some.inj (clockAt.symm.trans isTime)
      have short := recent now rfl timed (getLast?_concat ..)
      have := later last clockAt
      obtain before | long := pause <;> linarith
    · rw [isRedraw, isRight]
      refine tracks.followed before part state right split begun steady unpaused ?_
      intro earlier isEarlier last isLast
      have := recent now rfl last isLast
      have := later earlier isEarlier
      linarith
  · obtain rfl := Option.some.inj isNow
    exact (same candidate mem).2
  · obtain ⟨before, first, rest, split, evidence⟩ := tracks.evidence candidate (same candidate mem).1
    exact ⟨before, first, rest, split, evidence.steady, evidence.redraw, evidence.noOther,
      evidence.inRedraw.same either, evidence.again⟩

theorem Tracks.advance (tracks : Tracks clock history d)
    (later : ∀ earlier ∈ clock, earlier ≤ now) : Tracks (some now) history (d.advance now) := by
  unfold SerialColumnDetector.advance
  obtain same | ⟨broken, paused⟩ := @breakIdle_spec now d
  · rw [same]
    obtain dropped | ⟨kept, fresh⟩ := @dropOld_spec now d
    · rw [dropped]
      exact tracks.later later rfl rfl (.inr ⟨rfl, rfl⟩) (.inl rfl)
    · rw [kept]
      exact tracks.later later rfl rfl (.inr ⟨rfl, rfl⟩) (.inr ⟨rfl, fresh⟩)
  · rw [broken]
    obtain dropped | ⟨kept, fresh⟩ := @dropOld_spec now d.breakRedraw
    · rw [dropped]
      exact tracks.later later rfl rfl (.inl ⟨rfl, paused⟩) (.inl rfl)
    · rw [kept]
      exact tracks.later later rfl rfl (.inl ⟨rfl, paused⟩) (.inr ⟨rfl, fresh⟩)

theorem Tracks.of_core (tracks : Tracks clock history d) (same : d'.core = d.core) :
    Tracks clock history d' := by
  have modes : d'.modes = d.modes := by
    change d'.core.modes = d.core.modes
    rw [same]
  have lastAt : d'.lastAt = d.lastAt := by
    change d'.core.lastAt = d.core.lastAt
    rw [same]
  have redraw : d'.redraw = d.redraw := by
    change d'.core.redraw = d.core.redraw
    rw [same]
  have right : d'.right = d.right := by
    change d'.core.right = d.core.right
    rw [same]
  have candidate : d'.candidate = d.candidate := by
    change d'.core.candidate = d.core.candidate
    rw [same]
  refine ⟨modes.trans tracks.modes, lastAt ▸ tracks.lastAt, tracks.past, ?_, ?_,
    candidate ▸ tracks.bounded, candidate ▸ tracks.recent, ?_⟩
  · rw [redraw, right]
    exact tracks.begun
  · rw [redraw, right]
    exact tracks.followed
  · intro found mem
    obtain ⟨before, first, rest, split, evidence⟩ := tracks.evidence found (candidate ▸ mem)
    exact ⟨before, first, rest, split, evidence.steady, evidence.redraw, evidence.noOther,
      evidence.inRedraw.same (.inr ⟨redraw, right⟩), evidence.again⟩

theorem Tracks.steps (tracks : Tracks (some now) history d) (symbols : List SerialSymbol) :
    Tracks (some now) (history ++ symbols.map fun symbol => ⟨symbol, now⟩)
      (symbols.foldl (fun d symbol => d.handle now symbol) d) := by
  induction symbols generalizing history d with
  | nil => simpa using tracks
  | cons symbol symbols ih =>
    rw [map_cons, append_cons]
    exact ih (tracks.step symbol)

structure Follows (clock : Option ℚ) (stream : List (ℚ × Nat)) (d : SerialColumnDetector) :
    Prop where
  lexes : d.Lexes (columnLexer.run .ground stream).1
  tracks : Tracks clock (symbolsOf stream) d

theorem follows_initial (clock : Option ℚ) : Follows clock [] .initial where
  lexes := rfl
  tracks := by
    refine ⟨rfl, .inl rfl, nofun, fun active => absurd rfl active, ?_, nofun, nofun, nofun⟩
    intro before part state right split begun
    obtain ⟨-, rfl⟩ := append_eq_nil_iff.mp split.symm
    exact absurd rfl begun.filled

variable {stream : List (ℚ × Nat)}

theorem Follows.byte (follows : Follows (some now) stream d) (byte : Nat) :
    Follows (some now) (stream ++ [(now, byte)]) (d.consume byte now) := by
  obtain ⟨lexes, same⟩ := d.consume_lexed follows.lexes byte now
  have tracks := (follows.tracks.steps (lexByte _ byte).2).of_core same
  constructor
  · rw [Transducer.run_append]
    exact lexes
  · unfold symbolsOf at tracks ⊢
    rw [Transducer.run_append, Transducer.run_cons, Transducer.run_nil, append_nil]
    exact tracks

theorem Follows.bytes (follows : Follows (some now) stream d) (data : List Nat) :
    Follows (some now) (stream ++ data.map fun byte => (now, byte)) (d.read data now) := by
  unfold SerialColumnDetector.read
  induction data generalizing stream d with
  | nil => simpa using follows
  | cons byte data ih =>
    rw [map_cons, append_cons]
    exact ih (follows.byte byte)

theorem advance_lexes {lexer : ColumnLexer} (lexes : d.Lexes lexer) :
    (d.advance now).Lexes lexer := by
  have same : (d.advance now).parser = d.parser ∧ (d.advance now).csi = d.csi ∧
      (d.advance now).stringIsOsc = d.stringIsOsc := by
    unfold SerialColumnDetector.advance
    obtain idle | ⟨idle, -⟩ := @breakIdle_spec now d <;> rw [idle]
    · obtain old | ⟨old, -⟩ := @dropOld_spec now d <;> rw [old] <;> exact ⟨rfl, rfl, rfl⟩
    · obtain old | ⟨old, -⟩ := @dropOld_spec now d.breakRedraw <;> rw [old] <;>
        exact ⟨rfl, rfl, rfl⟩
  obtain ⟨parser, csi, osc⟩ := same
  cases lexer <;> simp only [SerialColumnDetector.Lexes, parser, csi, osc] at lexes ⊢ <;>
    exact lexes

theorem Follows.observe (follows : Follows clock stream d)
    (later : ∀ earlier ∈ clock, earlier ≤ now) (data : List Nat) :
    Follows (some now) (stream ++ data.map fun byte => (now, byte)) (d.observe data now).1 :=
  Follows.bytes ⟨advance_lexes follows.lexes, follows.tracks.advance later⟩ data

end Observations

def timesOf (events : List ColumnEvent) : List ℚ :=
  events.filterMap fun event => match event with
    | .observe _ now => some now
    | .reset => none

/-- The bytes that were received since the last reset, each with the time of its observation. -/
def receivedOf (events : List ColumnEvent) : List (ℚ × Nat) :=
  events.foldl (fun received event => match event with
    | .observe data now => received ++ data.map fun byte => (now, byte)
    | .reset => []) []

variable (events : List ColumnEvent)

theorem receivedOf_concat (event : ColumnEvent) :
    receivedOf (events ++ [event]) = match event with
      | .observe data now => receivedOf events ++ data.map fun byte => (now, byte)
      | .reset => [] := by
  unfold receivedOf
  rw [foldl_append]
  rfl

theorem timesOf_observe (data : List Nat) (now : ℚ) :
    timesOf (events ++ [.observe data now]) = timesOf events ++ [now] :=
  filterMap_append

theorem runEvents_follows (ordered : (timesOf events).Pairwise (· ≤ ·)) :
    ∃ clock, Follows clock (receivedOf events) (runEvents events) ∧
      ∀ now ∈ clock, now ∈ timesOf events := by
  induction events using List.reverseRecOn with
  | nil => exact ⟨none, follows_initial none, nofun⟩
  | append_singleton events event ih =>
    have run : runEvents (events ++ [event]) = event.apply (runEvents events) := by
      unfold runEvents
      rw [foldl_append]
      rfl
    rw [run, receivedOf_concat]
    cases event with
    | reset => exact ⟨none, follows_initial none, nofun⟩
    | observe data now =>
      rw [timesOf_observe] at ordered ⊢
      obtain ⟨earlier, -, before⟩ := pairwise_append.mp ordered
      obtain ⟨clock, follows, known⟩ := ih earlier
      refine ⟨some now, follows.observe (fun time mem => ?_) data, fun time isNow => ?_⟩
      · exact before time (known time mem) now mem_cons_self
      · obtain rfl := Option.some.inj isNow
        exact mem_append_right _ mem_cons_self

/-- What a report of the detector stands on, in every run with observations in the order of time. -/
theorem column_report_plain (events : List ColumnEvent) (data : List Nat) (now : ℚ)
    (ordered : (timesOf (events ++ [.observe data now])).Pairwise (· ≤ ·))
    (report : SerialColumnObservation)
    (reported : ((runEvents events).observe data now).2 = some report) :
    20 ≤ report.columns ∧ report.columns ≤ maxColumns ∧
      modesAfter (symbolsOf (receivedOf (events ++ [.observe data now]))) = .shell ∧
      Reported (symbolsOf (receivedOf (events ++ [.observe data now]))) now report.columns := by
  rw [timesOf_observe] at ordered
  obtain ⟨earlier, -, before⟩ := pairwise_append.mp ordered
  obtain ⟨clock, follows, known⟩ := runEvents_follows events earlier
  have tracks := (follows.observe (fun time mem =>
    before time (known time mem) now mem_cons_self) data).tracks
  rw [receivedOf_concat]
  dsimp only
  unfold SerialColumnDetector.observe at reported tracks
  dsimp only at reported tracks
  generalize ((runEvents events).advance now).read data now = d at reported tracks
  unfold SerialColumnDetector.report at reported
  split at reported
  next shell =>
    obtain ⟨candidate, found, twice⟩ := Option.bind_eq_some_iff.mp reported
    split at twice
    next twice' =>
      obtain rfl := Option.some.inj twice
      obtain ⟨wide, bounded⟩ := tracks.bounded candidate found
      obtain ⟨front, first, rest, split, evidence⟩ := tracks.evidence candidate found
      obtain ⟨between, second, behind, rfl, again, seenAt⟩ := evidence.again twice'
      refine ⟨wide, bounded, ?_, front, first, between, second, behind, ?_, ?_, evidence.redraw,
        again, ?_, evidence.noOther⟩
      · rw [← tracks.modes]
        exact SerialColumnDetector.modes_eq_shell.mpr shell
      · rw [split]
        simp only [append_assoc]
      · have steady := evidence.steady
        simp only [append_assoc] at steady ⊢
        exact steady
      · intro last isLast
        rw [seenAt last isLast]
        exact tracks.recent candidate found now rfl
    next => cases twice
  next => cases reported

section Examples

open SerialColumnDetector

/-- `ESC [ ? 2 0 0 4 h`. -/
def pasteOn : List Nat := [27, 91, 63, 50, 48, 48, 52, 104]

/-- `CR`, `ESC [ A`, a move of so many columns as the digits say, `ESC [ K`. -/
def redrawBytes (digits : List Nat) : List Nat :=
  [13, 27, 91, 65, 27, 91] ++ digits ++ [67, 27, 91, 75]

def twoRedraws : List Nat := pasteOn ++ redrawBytes [49, 57] ++ redrawBytes [49, 57]

/-- The detector in the shell modes, with a candidate. -/
def inShell (candidate : Option ColumnCandidate) : SerialColumnDetector :=
  { initial with bracketedPaste := true, lastAt := some 0, candidate }

theorem pasteOn_read : (initial.advance 0).read pasteOn 0 = inShell none := by
  have modes : modesOf [Char.ofNat 63, Char.ofNat 50, Char.ofNat 48, Char.ofNat 48, Char.ofNat 52] =
      some [2004] := by decide
  simp [pasteOn, inShell, initial, advance, breakIdle, dropOld, SerialColumnDetector.read, consume,
    SerialColumnDetector.control, breakRedraw, setMode, modes]

theorem redraw_read (candidate : Option ColumnCandidate) :
    (inShell candidate).read (redrawBytes [49, 57]) 0 = inShell (some ⟨⟨20, candidate.elim 1
      fun candidate => if candidate.columns = 20 then min 3 (candidate.observations + 1) else 1⟩,
        0⟩) := by
  have width : numberOf [Char.ofNat 49, Char.ofNat 57] = 19 := by decide
  have digits : (Char.ofNat 49).isDigit = true ∧ (Char.ofNat 57).isDigit = true := by decide
  have none : numberOf [] = 0 := rfl
  simp [redrawBytes, inShell, initial, SerialColumnDetector.read, consume, consumeGround,
    SerialColumnDetector.control, breakRedraw, maxColumns, observeRedraw, width, digits, none]

theorem wideRedraw_read (candidate : Option ColumnCandidate) :
    (inShell candidate).read (redrawBytes [49, 57, 57, 57]) 0 = inShell candidate := by
  have width : numberOf [Char.ofNat 49, Char.ofNat 57, Char.ofNat 57, Char.ofNat 57] = 1999 := by
    decide
  have digits : (Char.ofNat 49).isDigit = true ∧ (Char.ofNat 57).isDigit = true := by decide
  have none : numberOf [] = 0 := rfl
  simp [redrawBytes, inShell, initial, SerialColumnDetector.read, consume, consumeGround,
    SerialColumnDetector.control, breakRedraw, maxColumns, width, digits, none]

theorem twoRedraws_read :
    (initial.advance 0).read twoRedraws 0 = inShell (some ⟨⟨20, 2⟩, 0⟩) := by
  have shell := pasteOn_read
  have first := redraw_read none
  have second := redraw_read (some ⟨⟨20, 1⟩, 0⟩)
  unfold SerialColumnDetector.read at shell first second ⊢
  rw [twoRedraws, foldl_append, foldl_append, shell, first]
  exact second

theorem column_report_plain_twenty :
    ((runEvents []).observe twoRedraws 0).2 = some ⟨20, 2⟩ ∧
      Reported (symbolsOf (receivedOf [.observe twoRedraws 0])) 0 20 := by
  have reported : ((runEvents []).observe twoRedraws 0).2 = some ⟨20, 2⟩ := by
    unfold SerialColumnDetector.observe runEvents
    rw [foldl_nil]
    dsimp only
    rw [twoRedraws_read]
    rfl
  exact ⟨reported, (column_report_plain [] twoRedraws 0 (pairwise_singleton _ _) ⟨20, 2⟩
    reported).2.2.2⟩

/-- A redraw with one erasure at its start at most. -/
def CompleteRedraw (during : List TimedSymbol) (columns : Nat) : Prop :=
  ∃ erases, erases.length ≤ 1 ∧ RedrawWith erases (during.map TimedSymbol.symbol) columns

/-- The report where no redraw may follow that is wider than any terminal, or has a pause in it. -/
def ReportedAlone (history : List TimedSymbol) (now : ℚ) (columns : Nat) : Prop :=
  ∃ before first between second rest,
    history = before ++ first ++ between ++ second ++ rest ∧
      Steady before (first ++ between ++ second ++ rest) ∧
      CompleteRedraw first columns ∧ CompleteRedraw second columns ∧
      (∀ last ∈ second.getLast?, now - last.time ≤ evidenceWindowMs) ∧
      ∀ front other behind width, between ++ second ++ rest = front ++ other ++ behind →
        CompleteRedraw other width → 20 ≤ width → width = columns

theorem CompleteRedraw.long {during : List TimedSymbol} {columns : Nat}
    (complete : CompleteRedraw during columns) : 4 ≤ during.length := by
  obtain ⟨erases, -, up, moves, steps, back, last, same, -, -, moved, filled, -⟩ := complete
  have total := congrArg List.length same
  have each := congrArg List.length moved
  have := length_pos_iff.mpr filled
  simp only [length_map, length_append, length_cons, length_nil] at total each
  omega

def wideRedraw : List TimedSymbol :=
  [⟨.char 13, 0⟩, ⟨.control [] 'A', 0⟩, ⟨.control ['1', '9', '9', '9'] 'C', 0⟩, ⟨.control [] 'K', 0⟩]

theorem wideRedraw_complete : CompleteRedraw wideRedraw 2000 :=
  ⟨[], Nat.zero_le 1, .control [] 'A', [.control ['1', '9', '9', '9'] 'C'], [1999], [],
    .control [] 'K', rfl, nofun, ⟨0, Nat.zero_le 1, rfl⟩, rfl, cons_ne_nil _ _, rfl, .inl rfl,
    rfl⟩

theorem wideRedraw_last : wideRedraw <:+
    symbolsOf (receivedOf [.observe (twoRedraws ++ redrawBytes [49, 57, 57, 57]) 0]) := by
  have ground : (columnLexer.run .ground (twoRedraws.map fun byte => ((0 : ℚ), byte))).1 =
      .ground := rfl
  have wide : (columnLexer.run .ground
      ((redrawBytes [49, 57, 57, 57]).map fun byte => ((0 : ℚ), byte))).2 = wideRedraw := rfl
  refine ⟨symbolsOf (twoRedraws.map fun byte => ((0 : ℚ), byte)), ?_⟩
  have received : receivedOf [.observe (twoRedraws ++ redrawBytes [49, 57, 57, 57]) 0] =
      (twoRedraws.map fun byte => ((0 : ℚ), byte)) ++
        (redrawBytes [49, 57, 57, 57]).map fun byte => ((0 : ℚ), byte) := by
    rw [← map_append]
    rfl
  rw [received, symbolsOf, symbolsOf, Transducer.run_append, ground, wide]

/-- It does not end what the two redraws before it are evidence of. -/
theorem wide_redraw_ignored : ¬ ∀ events data now report,
    (timesOf (events ++ [.observe data now])).Pairwise (· ≤ ·) →
      ((runEvents events).observe data now).2 = some report →
        ReportedAlone (symbolsOf (receivedOf (events ++ [.observe data now]))) now
          report.columns := by
  intro alone
  have reported : ((runEvents []).observe (twoRedraws ++ redrawBytes [49, 57, 57, 57]) 0).2 =
      some ⟨20, 2⟩ := by
    have whole : (initial.advance 0).read (twoRedraws ++ redrawBytes [49, 57, 57, 57]) 0 =
        inShell (some ⟨⟨20, 2⟩, 0⟩) := by
      have first := twoRedraws_read
      have second := wideRedraw_read (some ⟨⟨20, 2⟩, 0⟩)
      unfold SerialColumnDetector.read at first second ⊢
      rw [foldl_append, first, second]
    unfold SerialColumnDetector.observe runEvents
    rw [foldl_nil]
    dsimp only
    rw [whole]
    rfl
  obtain ⟨before, first, between, second, rest, split, -, -, again, -, noOther⟩ :=
    alone [] _ 0 ⟨20, 2⟩ (pairwise_singleton _ _) reported
  rw [nil_append] at split
  have wide : wideRedraw <:+ between ++ second ++ rest := by
    have last : wideRedraw <:+ before ++ first ++ (between ++ second ++ rest) := by
      have whole := wideRedraw_last
      rw [split] at whole
      simpa only [append_assoc] using whole
    refine suffix_of_suffix_length_le last (suffix_append _ _) ?_
    have := again.long
    simp only [length_append, wideRedraw, length_cons, length_nil]
    omega
  obtain ⟨front, whole⟩ := wide
  have same := noOther front wideRedraw [] 2000 (by rw [append_nil, whole])
    wideRedraw_complete (by decide)
  exact absurd same (by decide)

end Examples

end PortMate.SerialColumns
