import Mathlib.Algebra.GroupWithZero.Nat
import Mathlib.Data.List.Induction
import PortMate.SerialColumns

namespace PortMate.SerialColumns

open List

/-- What a terminal takes in at once, outside of control strings: a character, a control sequence, a
reset of everything, or another sequence, also one that is cancelled, malformed or too long. -/
inductive SerialSymbol
  | char (byte : Nat)
  | control (params : List Char) (final : Char)
  | reset
  | other

structure TimedSymbol where
  symbol : SerialSymbol
  time : ℚ

inductive ColumnLexer
  | ground
  | escape
  | intermediate
  | csi (params : List Char)
  | string (osc escaped : Bool)

def lexByte : ColumnLexer → Nat → ColumnLexer × List SerialSymbol
  | .string osc escaped, byte =>
    if byte = 0x18 ∨ byte = 0x1a ∨ (osc ∧ byte = 7) ∨ (escaped ∧ byte = 0x5c) then (.ground, [])
    else (.string osc (byte = 0x1b), [])
  | lexer, byte =>
    if byte = 0x18 ∨ byte = 0x1a then (.ground, [.other])
    else if byte = 0x1b then (.escape, [])
    else
      match lexer with
      | .escape =>
        if byte = 0x5b then (.csi [], [])
        else if byte ∈ [0x5d, 0x50, 0x5f, 0x5e, 0x58] then (.string (byte = 0x5d) false, [.other])
        else if 0x20 ≤ byte ∧ byte ≤ 0x2f then (.intermediate, [.other])
        else if byte = 0x63 then (.ground, [.reset])
        else (.ground, [.other])
      | .intermediate => (if 0x30 ≤ byte then .ground else .intermediate, [])
      | .csi params =>
        if 0x40 ≤ byte ∧ byte ≤ 0x7e then (.ground, [.control params (Char.ofNat byte)])
        else if 0x20 ≤ byte ∧ byte ≤ 0x3f ∧ params.length < 48 then
          (.csi (params ++ [Char.ofNat byte]), [])
        else (.ground, [.other])
      | _ => (.ground, [.char byte])

def columnLexer : Transducer ColumnLexer (ℚ × Nat) TimedSymbol where
  step lexer timed :=
    ((lexByte lexer timed.2).1, (lexByte lexer timed.2).2.map fun symbol => ⟨symbol, timed.1⟩)

/-- The symbols of a stream of bytes with their times. -/
def symbolsOf (stream : List (ℚ × Nat)) : List TimedSymbol := (columnLexer.run .ground stream).2

structure ScreenModes where
  paste : Bool
  alternates : List Nat

namespace ScreenModes

def initial : ScreenModes := ⟨false, []⟩

/-- A shell that edits its line on the normal screen. -/
def shell : ScreenModes := ⟨true, []⟩

def isAlternate (mode : Nat) : Bool := mode = 47 || mode = 1047 || mode = 1049

def set (on : Bool) (modes : ScreenModes) (mode : Nat) : ScreenModes where
  paste := if mode = 2004 then on else modes.paste
  alternates :=
    if isAlternate mode then
      if on then if mode ∈ modes.alternates then modes.alternates else modes.alternates ++ [mode]
      else modes.alternates.filter (· ≠ mode)
    else modes.alternates

def after (modes : ScreenModes) : SerialSymbol → ScreenModes
  | .reset => initial
  | .control params final =>
    match if final = 'h' ∨ final = 'l' then modesOf params else none with
    | some changed => changed.foldl (set (final = 'h')) modes
    | none => if params = ['!'] ∧ final = 'p' then initial else modes
  | _ => modes

end ScreenModes

def modesAfter (history : List TimedSymbol) : ScreenModes :=
  history.foldl (fun modes timed => modes.after timed.symbol) .initial

/-- The shell modes hold all through a part of the history. -/
def Steady (before during : List TimedSymbol) : Prop :=
  ∀ part, part <+: during → modesAfter (before ++ part) = .shell

/-- The number of a control sequence that has at most one. -/
def SerialSymbol.value? (wanted : Char) : SerialSymbol → Option Nat
  | .control params final =>
    if final = wanted ∧ params.all Char.isDigit then some (numberOf params) else none
  | _ => none

def SerialSymbol.IsErase (symbol : SerialSymbol) : Prop := symbol.value? 'K' = some 0

def SerialSymbol.IsUp (symbol : SerialSymbol) : Prop := ∃ rows ≤ 1, symbol.value? 'A' = some rows

/-- How far a move to the right goes; none is one. -/
def SerialSymbol.moves? (symbol : SerialSymbol) : Option Nat :=
  (symbol.value? 'C').map fun columns => if columns = 0 then 1 else columns

/-- A redraw with the given erasures at its start. -/
def RedrawWith (erases symbols : List SerialSymbol) (columns : Nat) : Prop :=
  ∃ up moves steps back last,
    symbols = [.char 13] ++ erases ++ [up] ++ moves ++ back ++ [last] ∧
      (∀ symbol ∈ erases, symbol.IsErase) ∧ up.IsUp ∧
      moves.map SerialSymbol.moves? = steps.map some ∧ steps ≠ [] ∧ columns = steps.sum + 1 ∧
      (back = [] ∨ back = [.char 8]) ∧ last.IsErase

/-- A redraw of a line of so many columns: a return, erasures, one row up, moves to the end of the
line, a backspace or none, and an erasure. -/
def Redraw (during : List TimedSymbol) (columns : Nat) : Prop :=
  ∃ erases, RedrawWith erases (during.map TimedSymbol.symbol) columns

def Unpaused (during : List TimedSymbol) : Prop :=
  during.IsChain fun earlier later => later.time - earlier.time ≤ sequenceIdleMs

/-- No redraw of another width that could be one of a terminal. -/
def NoOther (columns : Nat) (during : List TimedSymbol) : Prop :=
  ∀ before other behind width, during = before ++ other ++ behind → Redraw other width →
    Unpaused other → 20 ≤ width → width ≤ maxColumns → width = columns

def Reported (history : List TimedSymbol) (now : ℚ) (columns : Nat) : Prop :=
  ∃ before first between second rest,
    history = before ++ first ++ between ++ second ++ rest ∧
      Steady before (first ++ between ++ second ++ rest) ∧
      Redraw first columns ∧ Redraw second columns ∧
      (∀ last ∈ second.getLast?, now - last.time ≤ evidenceWindowMs) ∧
      NoOther columns (between ++ second ++ rest)

/-- The beginning of a redraw, with the state it leaves and how far it is to the right. -/
inductive RedrawPart : List SerialSymbol → RedrawState → Nat → Prop
  | start : RedrawPart [.char 13] .lineStart 0
  | erase {part symbol} : RedrawPart part .lineStart 0 → symbol.IsErase →
    RedrawPart (part ++ [symbol]) .lineStart 0
  | up {part symbol} : RedrawPart part .lineStart 0 → symbol.IsUp →
    RedrawPart (part ++ [symbol]) .up 0
  | move {part state right symbol columns} : RedrawPart part state right →
    state = .up ∨ state = .right → symbol.moves? = some columns → right + columns < maxColumns →
    RedrawPart (part ++ [symbol]) .right (right + columns)
  | back {part right} : RedrawPart part .right right → RedrawPart (part ++ [.char 8]) .erase right

namespace RedrawPart

variable {part : List SerialSymbol} {state : RedrawState} {right : Nat}

def Shape (part : List SerialSymbol) (right : Nat) : RedrawState → Prop
  | .idle => False
  | .lineStart => ∃ erases, part = [.char 13] ++ erases ∧ (∀ symbol ∈ erases, symbol.IsErase) ∧
      right = 0
  | .up => ∃ erases up, part = [.char 13] ++ erases ++ [up] ∧ (∀ symbol ∈ erases, symbol.IsErase) ∧
      up.IsUp ∧ right = 0
  | state => ∃ erases up moves steps back, part = [.char 13] ++ erases ++ [up] ++ moves ++ back ∧
      (∀ symbol ∈ erases, symbol.IsErase) ∧ up.IsUp ∧
      moves.map SerialSymbol.moves? = steps.map some ∧ steps ≠ [] ∧ right = steps.sum ∧
      (if state = .right then back = [] else back = [.char 8])

theorem shape (begun : RedrawPart part state right) : Shape part right state := by
  induction begun with
  | start => exact ⟨[], rfl, nofun, rfl⟩
  | @erase part symbol _ erases ih =>
    obtain ⟨earlier, rfl, all, -⟩ := ih
    refine ⟨earlier ++ [symbol], (append_assoc _ _ _).symm ▸ rfl, ?_, rfl⟩
    exact forall_mem_append.mpr ⟨all, by simpa using erases⟩
  | @up part symbol _ goesUp ih =>
    obtain ⟨erases, rfl, all, -⟩ := ih
    exact ⟨erases, symbol, rfl, all, goesUp, rfl⟩
  | @move part state right symbol columns _ before moves _ ih =>
    obtain rfl | rfl := before
    · obtain ⟨erases, up, rfl, all, goesUp, rfl⟩ := ih
      exact ⟨erases, up, [symbol], [columns], [], by simp, all, goesUp, by simp [moves], by simp,
        by simp, rfl⟩
    · obtain ⟨erases, up, earlier, steps, back, rfl, all, goesUp, same, -, rfl, rfl⟩ := ih
      exact ⟨erases, up, earlier ++ [symbol], steps ++ [columns], [], by simp, all, goesUp,
        by simp [same, moves], by simp, by simp, rfl⟩
  | back _ ih =>
    obtain ⟨erases, up, moves, steps, back, rfl, all, goesUp, same, filled, rfl, rfl⟩ := ih
    exact ⟨erases, up, moves, steps, [.char 8], by simp, all, goesUp, same, filled, rfl, rfl⟩

theorem bounded (begun : RedrawPart part state right) : right < maxColumns := by
  induction begun with
  | start | erase | up => decide
  | move _ _ _ bound => exact bound
  | back _ ih => exact ih

theorem complete (begun : RedrawPart part state right) (ends : state = .right ∨ state = .erase)
    {symbol : SerialSymbol} (erases : symbol.IsErase) :
    ∃ erases, RedrawWith erases (part ++ [symbol]) (right + 1) := by
  have shaped := begun.shape
  obtain rfl | rfl := ends
  · obtain ⟨earlier, up, moves, steps, back, rfl, all, goesUp, same, filled, rfl, rfl⟩ := shaped
    exact ⟨earlier, up, moves, steps, [], symbol, rfl, all, goesUp, same, filled, rfl, .inl rfl,
      erases⟩
  · obtain ⟨earlier, up, moves, steps, back, rfl, all, goesUp, same, filled, rfl, rfl⟩ := shaped
    exact ⟨earlier, up, moves, steps, [.char 8], symbol, rfl, all, goesUp, same, filled, rfl,
      .inr rfl, erases⟩

theorem erasing {erases : List SerialSymbol} (all : ∀ symbol ∈ erases, symbol.IsErase) :
    RedrawPart ([.char 13] ++ erases) .lineStart 0 := by
  induction erases using List.reverseRecOn with
  | nil => exact .start
  | append_singleton earlier symbol ih =>
    obtain ⟨before, last⟩ := forall_mem_append.mp all
    rw [← append_assoc]
    exact .erase (ih before) (last symbol mem_cons_self)

theorem moving {moves : List SerialSymbol} {steps : List Nat}
    (same : moves.map SerialSymbol.moves? = steps.map some) (filled : steps ≠ [])
    (begun : RedrawPart part state right) (before : state = .up ∨ state = .right)
    (fits : right + steps.sum < maxColumns) :
    RedrawPart (part ++ moves) .right (right + steps.sum) := by
  induction steps generalizing moves part state right with
  | nil => exact absurd rfl filled
  | cons columns steps ih =>
    cases moves with
    | nil => cases same
    | cons symbol moves =>
      obtain ⟨move, same⟩ := List.cons.inj same
      rw [sum_cons, ← Nat.add_assoc] at fits ⊢
      have next := begun.move before move (by omega)
      by_cases last : steps = []
      · subst last
        obtain rfl : moves = [] := map_eq_nil_iff.mp same
        exact next
      · rw [append_cons]
        exact ih same last next (.inr rfl) fits

theorem of_redraw {symbols erases : List SerialSymbol} {columns : Nat}
    (redraw : RedrawWith erases symbols columns) (bounded : columns ≤ maxColumns) :
    ∃ part last state right, symbols = part ++ [last] ∧ RedrawPart part state right ∧
      (state = .right ∨ state = .erase) ∧ last.IsErase ∧ columns = right + 1 := by
  obtain ⟨up, moves, steps, back, last, rfl, all, goesUp, same, filled, rfl, either, ends⟩ := redraw
  have moved := moving same filled ((erasing all).up goesUp) (.inl rfl) (by omega)
  rw [Nat.zero_add] at moved
  obtain rfl | rfl := either
  · exact ⟨_, last, .right, _, by rw [append_nil], moved, .inl rfl, ends, rfl⟩
  · exact ⟨_, last, .erase, _, rfl, moved.back, .inr rfl, ends, rfl⟩

end RedrawPart

end PortMate.SerialColumns
