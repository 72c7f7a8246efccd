import Mathlib.Data.Rat.Defs
import PortMate.Transducer

namespace PortMate.SerialColumns

inductive ParserState
  | ground
  | escape
  | csi
  | string
  | stringEscape
  | escapeIntermediate
  deriving DecidableEq

inductive RedrawState
  | idle
  | lineStart
  | up
  | right
  | erase
  deriving DecidableEq

def evidenceWindowMs : ℚ := 120000

def sequenceIdleMs : ℚ := 2000

def maxColumns : Nat := 1024

structure SerialColumnObservation where
  columns : Nat
  observations : Nat
  deriving DecidableEq

structure ColumnCandidate extends SerialColumnObservation where
  seenAt : ℚ

structure SerialColumnDetector where
  parser : ParserState
  csi : List Char
  stringIsOsc : Bool
  bracketedPaste : Bool
  alternateModes : List Nat
  redraw : RedrawState
  right : Nat
  lastAt : Option ℚ
  candidate : Option ColumnCandidate

/-- `Number`, for digits. -/
def numberOf (digits : List Char) : Nat :=
  digits.foldl (fun n c => 10 * n + (c.toNat - '0'.toNat)) 0

/-- The modes of `?n;n;…`. -/
def modesOf : List Char → Option (List Nat)
  | '?' :: text =>
    let modes := text.splitOn ';'
    if modes.all (fun mode => !mode.isEmpty && mode.all Char.isDigit) then
      some (modes.map numberOf)
    else none
  | _ => none

namespace SerialColumnDetector

def initial : SerialColumnDetector where
  parser := .ground
  csi := []
  stringIsOsc := false
  bracketedPaste := false
  alternateModes := []
  redraw := .idle
  right := 0
  lastAt := none
  candidate := none

def reset (_ : SerialColumnDetector) : SerialColumnDetector := initial

variable (d : SerialColumnDetector)

def breakRedraw : SerialColumnDetector := { d with redraw := .idle, right := 0 }

/-- One mode of a control sequence that sets or resets modes. -/
def setMode (on : Bool) (d : SerialColumnDetector) (mode : Nat) : SerialColumnDetector :=
  let d :=
    if mode = 2004 then
      if on = d.bracketedPaste then d
      else { d.breakRedraw with candidate := none, bracketedPaste := on }
    else d
  if mode = 47 ∨ mode = 1047 ∨ mode = 1049 then
    { d with
      alternateModes :=
        if on then if mode ∈ d.alternateModes then d.alternateModes else d.alternateModes ++ [mode]
        else d.alternateModes.filter (· ≠ mode)
      candidate := none }
  else d

def observeRedraw (now : ℚ) : SerialColumnDetector :=
  let columns := d.right + 1
  { d with
    candidate := some
      { columns
        observations := d.candidate.elim 1 fun candidate =>
          if candidate.columns = columns then min 3 (candidate.observations + 1) else 1
        seenAt := now } }

def control (params : List Char) (final : Char) (now : ℚ) : SerialColumnDetector :=
  match if final = 'h' ∨ final = 'l' then modesOf params else none with
  | some modes => (modes.foldl (setMode (final = 'h')) d).breakRedraw
  | none =>
    if params = ['!'] ∧ final = 'p' then d.reset
    else if !d.bracketedPaste || !d.alternateModes.isEmpty || !params.all Char.isDigit then
      d.breakRedraw
    else
      let value := numberOf params
      if final = 'A' ∧ value ≤ 1 ∧ d.redraw = .lineStart then { d with redraw := .up }
      else if final = 'C' ∧ (d.redraw = .up ∨ d.redraw = .right) then
        let d := { d with right := d.right + (if value = 0 then 1 else value), redraw := .right }
        if maxColumns ≤ d.right then d.breakRedraw else d
      else if final = 'K' ∧ value = 0 then
        if d.redraw = .lineStart then d
        else if (d.redraw = .right ∨ d.redraw = .erase) ∧ 19 ≤ d.right then
          (d.observeRedraw now).breakRedraw
        else d.breakRedraw
      else d.breakRedraw

def consumeGround (byte : Nat) : SerialColumnDetector :=
  if d.bracketedPaste ∧ d.alternateModes = [] ∧ byte = 13 then
    { d with redraw := .lineStart, right := 0 }
  else if byte = 8 ∧ d.redraw = .right then { d with redraw := .erase }
  else d.breakRedraw

def consume (byte : Nat) (now : ℚ) : SerialColumnDetector :=
  if d.parser = .string ∨ d.parser = .stringEscape then
    if byte = 0x18 ∨ byte = 0x1a ∨ (d.stringIsOsc ∧ byte = 7) ∨
        (d.parser = .stringEscape ∧ byte = 0x5c) then
      { d with parser := .ground }
    else { d with parser := if byte = 0x1b then .stringEscape else .string }
  else if byte = 0x18 ∨ byte = 0x1a then { d.breakRedraw with parser := .ground, csi := [] }
  else if byte = 0x1b then { d with parser := .escape, csi := [] }
  else
    match d.parser with
    | .escape =>
      if byte = 0x5b then { d with parser := .csi }
      else if byte ∈ [0x5d, 0x50, 0x5f, 0x5e, 0x58] then
        { d.breakRedraw with stringIsOsc := byte = 0x5d, parser := .string }
      else if 0x20 ≤ byte ∧ byte ≤ 0x2f then { d.breakRedraw with parser := .escapeIntermediate }
      else if byte = 0x63 then d.reset
      else { d.breakRedraw with parser := .ground }
    | .escapeIntermediate => if 0x30 ≤ byte then { d with parser := .ground } else d
    | .csi =>
      if 0x40 ≤ byte ∧ byte ≤ 0x7e then
        { d.control d.csi (Char.ofNat byte) now with parser := .ground, csi := [] }
      else if 0x20 ≤ byte ∧ byte ≤ 0x3f ∧ d.csi.length < 48 then
        { d with csi := d.csi ++ [Char.ofNat byte] }
      else { d.breakRedraw with parser := .ground, csi := [] }
    | _ => d.consumeGround byte

def breakIdle (now : ℚ) : SerialColumnDetector :=
  match d.lastAt with
  | some last => if now < last ∨ sequenceIdleMs < now - last then d.breakRedraw else d
  | none => d

def dropOld (now : ℚ) : SerialColumnDetector :=
  match d.candidate with
  | some candidate =>
    if now < candidate.seenAt ∨ evidenceWindowMs < now - candidate.seenAt then
      { d with candidate := none }
    else d
  | none => d

def advance (now : ℚ) : SerialColumnDetector :=
  { (d.breakIdle now).dropOld now with lastAt := some now }

def report : Option SerialColumnObservation :=
  if d.bracketedPaste ∧ d.alternateModes = [] then
    d.candidate.bind fun candidate =>
      if 2 ≤ candidate.observations then some candidate.toSerialColumnObservation else none
  else none

def read (data : List Nat) (now : ℚ) : SerialColumnDetector :=
  data.foldl (fun d byte => d.consume byte now) d

def observe (data : List Nat) (now : ℚ) : SerialColumnDetector × Option SerialColumnObservation :=
  let d := (d.advance now).read data now
  (d, d.report)

end SerialColumnDetector

inductive ColumnEvent
  | observe (data : List Nat) (now : ℚ)
  | reset

def ColumnEvent.apply (d : SerialColumnDetector) : ColumnEvent → SerialColumnDetector
  | .observe data now => (d.observe data now).1
  | .reset => d.reset

def runEvents (events : List ColumnEvent) : SerialColumnDetector :=
  events.foldl ColumnEvent.apply .initial

end PortMate.SerialColumns
