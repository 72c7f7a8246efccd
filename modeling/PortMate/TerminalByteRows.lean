import PortMate.TerminalByteBuffer

namespace PortMate.TerminalBytes

open List

structure TerminalByteRow where
  id : String
  frameId : String
  ts : String
  direction : EventDirection
  stream : EventStream
  offset : ℚ
  frameByteOffset : Nat
  bytes : List ℚ
  omittedBytes : ℚ

/-- `Math.max(1, Math.trunc(bytesPerRow))`. -/
def rowWidth (bytesPerRow : ℚ) : Nat := max 1 (wholeOf bytesPerRow)

def rowAt (width : Nat) (frame : TerminalByteFrame) (frameByteOffset : Nat) : TerminalByteRow :=
  let bytes := (frame.bytes.drop frameByteOffset).take width
  { id := frame.id ++ ":" ++ toString frameByteOffset
    frameId := frame.id
    ts := frame.ts
    direction := frame.direction
    stream := frame.stream
    offset := frame.startOffset + frameByteOffset
    frameByteOffset := frameByteOffset
    bytes := bytes
    omittedBytes :=
      if frameByteOffset + bytes.length = frame.bytes.length then
        max 0 (frame.originalLength - frame.bytes.length)
      else 0 }

/-- The inner loop, which takes at most one turn for each byte. -/
def frameRows (width : Nat) (frame : TerminalByteFrame) : Nat → Nat → List TerminalByteRow
  | 0, _ => []
  | turns + 1, frameByteOffset =>
    if frameByteOffset < frame.bytes.length then
      rowAt width frame frameByteOffset :: frameRows width frame turns (frameByteOffset + width)
    else []

def terminalByteRows (frames : List TerminalByteFrame) (bytesPerRow : ℚ) : List TerminalByteRow :=
  frames.flatMap fun frame => frameRows (rowWidth bytesPerRow) frame frame.bytes.length 0

/-- The loop of `terminalByteSelectionRowIndex`; the length over the width is rounded up. -/
def rowIndexFrom (width : Nat) (selection : TerminalByteSelection) :
    List TerminalByteFrame → Int → Option Int
  | [], _ => none
  | frame :: rest, row =>
    if frame.id = selection.frameId then
      if selection.byteIndex < 0 ∨ selection.byteIndex ≥ frame.bytes.length then none
      else some (row + selection.byteIndex / width)
    else rowIndexFrom width selection rest (row + (frame.bytes.length + width - 1) / width)

def terminalByteSelectionRowIndex (frames : List TerminalByteFrame)
    (selection : Option TerminalByteSelection) (bytesPerRow : ℚ) : Option Int :=
  selection.bind fun selection => rowIndexFrom (rowWidth bytesPerRow) selection frames 0

section Rows

variable {width : Nat} {frame : TerminalByteFrame}

/-- What the rows from an offset on are: the bytes that follow, each row full but for the last. -/
structure RowsFrom (width : Nat) (frame : TerminalByteFrame) (offset : Nat)
    (rows : List TerminalByteRow) : Prop where
  bytes : rows.flatMap (·.bytes) = frame.bytes.drop offset
  filled : ∀ row ∈ rows, row.bytes ≠ [] ∧ row.bytes.length ≤ width
  count : rows.length = (frame.bytes.length - offset + width - 1) / width
  place : ∀ k, offset + k * width < frame.bytes.length →
    rows[k]? = some (rowAt width frame (offset + k * width))

theorem RowsFrom.past (positive : 0 < width) {offset : Nat} (past : frame.bytes.length ≤ offset) :
    RowsFrom width frame offset [] := by
  refine ⟨(drop_of_length_le past).symm, nofun, ?_, fun k inside => ?_⟩
  · rw [Nat.sub_eq_zero_of_le past, Nat.zero_add, Nat.div_eq_of_lt (by omega)]
    rfl
  · have more : offset ≤ offset + k * width := Nat.le_add_right _ _
    omega

theorem RowsFrom.cons (positive : 0 < width) {offset : Nat} {rows : List TerminalByteRow}
    (inside : offset < frame.bytes.length) (rest : RowsFrom width frame (offset + width) rows) :
    RowsFrom width frame offset (rowAt width frame offset :: rows) := by
  obtain ⟨bytes, filled, count, place⟩ := rest
  refine ⟨?_, ?_, ?_, fun k within => ?_⟩
  · rw [flatMap_cons, bytes, ← drop_drop]
    exact take_append_drop width _
  · refine forall_mem_cons.mpr ⟨⟨fun none => ?_, length_take_le _ _⟩, filled⟩
    have length := congrArg List.length none
    simp only [rowAt, length_take, length_drop, length_nil] at length
    omega
  · rw [length_cons, count, ← Nat.add_div_right _ positive]
    obtain short | long := Nat.le_total (frame.bytes.length - offset) width
    · rw [Nat.sub_eq_zero_of_le (by omega : frame.bytes.length ≤ offset + width)]
      have one : (0 + width - 1 + width) / width = 1 := Nat.div_eq_of_lt_le (by omega) (by omega)
      exact one.trans (Nat.div_eq_of_lt_le (by omega) (by omega)).symm
    · exact congrArg (· / width) (by omega)
  · cases k with
    | zero => simp
    | succ k =>
      have step : offset + (k + 1) * width = offset + width + k * width := by
        rw [Nat.succ_mul]
        omega
      rw [step] at within ⊢
      exact place k within

theorem frameRows_from (frame : TerminalByteFrame) (positive : 0 < width) (turns offset : Nat)
    (enough : frame.bytes.length ≤ offset + turns) :
    RowsFrom width frame offset (frameRows width frame turns offset) := by
  induction turns generalizing offset with
  | zero => exact .past positive enough
  | succ turns ih =>
    unfold frameRows
    split
    next inside => exact .cons positive inside (ih (offset + width) (by omega))
    next past => exact .past positive (Nat.le_of_not_lt past)

/-- The row of a selected byte is the one that holds it, and only a byte of the buffer has one. -/
theorem rowIndexFrom_row (positive : 0 < width) (selection : TerminalByteSelection)
    (frames : List TerminalByteFrame) (before : List TerminalByteRow) (position : Int) :
    (rowIndexFrom width selection frames before.length = none ↔
        positionFrom selection frames position = none) ∧
      ∀ index, rowIndexFrom width selection frames before.length = some index →
        ∃ k row, index = Int.ofNat k ∧
          (before ++ frames.flatMap fun frame =>
            frameRows width frame frame.bytes.length 0)[k]? = some row ∧
          row.frameId = selection.frameId ∧ row.frameByteOffset ≤ selection.byteIndex ∧
            selection.byteIndex < row.frameByteOffset + row.bytes.length := by
  induction frames generalizing before position with
  | nil =>
    exact ⟨⟨fun _ => rfl, fun _ => rfl⟩, fun _ found => absurd found.symm (Option.some_ne_none _)⟩
  | cons frame rest ih =>
    have rows := frameRows_from frame positive frame.bytes.length 0 (by omega)
    unfold rowIndexFrom positionFrom
    by_cases own : frame.id = selection.frameId
    · rw [if_pos own, if_pos own]
      split
      next =>
        exact ⟨⟨fun _ => rfl, fun _ => rfl⟩,
          fun _ found => absurd found.symm (Option.some_ne_none _)⟩
      next inside =>
        obtain ⟨byte, same⟩ := Int.eq_ofNat_of_zero_le (by omega : 0 ≤ selection.byteIndex)
        rw [same] at inside ⊢
        refine ⟨⟨fun none => absurd none (Option.some_ne_none _),
          fun none => absurd none (Option.some_ne_none _)⟩, fun index found => ?_⟩
        have start : byte / width * width ≤ byte := Nat.div_mul_le_self byte width
        have stop : byte < byte / width * width + width := Nat.lt_div_mul_add positive
        have here := rows.place (byte / width) (by omega)
        have early : byte / width < (frameRows width frame frame.bytes.length 0).length :=
          (List.getElem?_eq_some_iff.mp here).1
        refine ⟨before.length + byte / width, rowAt width frame (byte / width * width),
          (Option.some.inj found).symm, ?_, own, by exact_mod_cast start, ?_⟩
        · rw [getElem?_append_right (Nat.le_add_right _ _), Nat.add_sub_cancel_left,
            flatMap_cons, getElem?_append_left early, here, Nat.zero_add]
        · simp only [rowAt, length_take, length_drop]
          omega
    · rw [if_neg own, if_neg own]
      have count : (before.length + (frame.bytes.length + width - 1) / width : Int) =
          ((before ++ frameRows width frame frame.bytes.length 0).length : Nat) := by
        rw [length_append, rows.count, Nat.sub_zero]
        push_cast
        congr 2
        omega
      rw [count, flatMap_cons, ← append_assoc]
      exact ih _ _

end Rows

/-- Whatever the width, the rows show the bytes of the frames in order, none is empty or too long,
and the selected byte is shown in the row that its index names. -/
theorem terminal_byte_rows_show_buffer (frames : List TerminalByteFrame) (bytesPerRow : ℚ) :
    (terminalByteRows frames bytesPerRow).flatMap (·.bytes) = frames.flatMap (·.bytes) ∧
      (∀ row ∈ terminalByteRows frames bytesPerRow,
        row.bytes ≠ [] ∧ row.bytes.length ≤ rowWidth bytesPerRow) ∧
      ∀ selection,
        (terminalByteSelectionRowIndex frames (some selection) bytesPerRow = none ↔
          terminalByteSelectionPosition frames (some selection) = none) ∧
        ∀ index, terminalByteSelectionRowIndex frames (some selection) bytesPerRow = some index →
          ∃ k row, index = Int.ofNat k ∧ (terminalByteRows frames bytesPerRow)[k]? = some row ∧
            row.frameId = selection.frameId ∧ row.frameByteOffset ≤ selection.byteIndex ∧
              selection.byteIndex < row.frameByteOffset + row.bytes.length := by
  have positive : 0 < rowWidth bytesPerRow := Nat.lt_of_lt_of_le Nat.one_pos (le_max_left _ _)
  have rows := fun frame : TerminalByteFrame =>
    frameRows_from frame positive frame.bytes.length 0 (by omega)
  refine ⟨?_, fun row mem => ?_, fun selection => ?_⟩
  · unfold terminalByteRows
    rw [flatMap_assoc]
    exact congrArg (List.flatMap · frames) (funext fun frame => (rows frame).bytes)
  · obtain ⟨frame, -, own⟩ := mem_flatMap.mp mem
    exact (rows frame).filled row own
  · exact rowIndexFrom_row positive selection frames [] 0

section Moves

variable {frames : List TerminalByteFrame}

/-- Where a move goes: so many bytes on within the buffer, or to an end of it. -/
def movedPosition (total : Nat) (position : Option Int) (delta : Int) : Option Int :=
  if total = 0 then none
  else
    match position with
    | none => some (if delta < 0 then total - 1 else 0)
    | some position => some (min (total - 1) (max 0 (position + delta)))

theorem moveTerminalByteSelection_moved (distinct : (frameNames frames).Nodup)
    (selection : Option TerminalByteSelection) (delta : Int) :
    terminalByteSelectionPosition frames (moveTerminalByteSelection frames selection delta) =
      movedPosition (totalBytes frames) (terminalByteSelectionPosition frames selection) delta := by
  unfold movedPosition
  by_cases empty : totalBytes frames = 0
  · rw [moveTerminalByteSelection, if_pos empty, if_pos empty]
    rfl
  · rw [if_neg empty]
    cases known : terminalByteSelectionPosition frames selection with
    | some position =>
      cases selection with
      | none => cases known
      | some selection =>
        obtain ⟨moved, there, at'⟩ := moveTerminalByteSelection_position distinct delta known
        rw [there]
        exact at'
    | none =>
      have target : 0 ≤ (if delta < 0 then (totalBytes frames : Int) - 1 else 0) ∧
          (if delta < 0 then (totalBytes frames : Int) - 1 else 0) < totalBytes frames := by
        split <;> omega
      obtain ⟨moved, there, at'⟩ := position_of_selectionAt distinct target.1 target.2
      rw [moveTerminalByteSelection, if_neg empty, known]
      dsimp only
      rw [there]
      exact at'

theorem movedPosition_known {total : Nat} (full : total ≠ 0) (position : Option Int)
    (delta : Int) : movedPosition total position delta ≠ none := by
  unfold movedPosition
  rw [if_neg full]
  cases position <;> exact Option.some_ne_none _

theorem moves_moved (distinct : (frameNames frames).Nodup) (deltas : List Int)
    (selection : Option TerminalByteSelection) :
    terminalByteSelectionPosition frames
        (deltas.foldl (moveTerminalByteSelection frames) selection) =
      deltas.foldl (movedPosition (totalBytes frames))
        (terminalByteSelectionPosition frames selection) := by
  induction deltas generalizing selection with
  | nil => rfl
  | cons delta deltas ih =>
    rw [foldl_cons, ih, moveTerminalByteSelection_moved distinct]
    rfl

/-- However the selection is moved about in a buffer, it is where the moves go, and the row that the
view scrolls to shows its byte. -/
theorem moved_selection_shown (batches : List (List TerminalBytesEvent × TerminalByteBufferLimits))
    (bytesPerRow : ℚ) (selection : Option TerminalByteSelection) (deltas : List Int) :
    let frames := (bufferAfter batches).frames
    let moved := deltas.foldl (moveTerminalByteSelection frames) selection
    terminalByteSelectionPosition frames moved =
        deltas.foldl (movedPosition (totalBytes frames))
          (terminalByteSelectionPosition frames selection) ∧
      (deltas ≠ [] → totalBytes frames ≠ 0 → ∃ byte k row, moved = some byte ∧
        terminalByteSelectionRowIndex frames moved bytesPerRow = some (Int.ofNat k) ∧
        (terminalByteRows frames bytesPerRow)[k]? = some row ∧ row.frameId = byte.frameId ∧
        row.frameByteOffset ≤ byte.byteIndex ∧
        byte.byteIndex < row.frameByteOffset + row.bytes.length) := by
  intro frames moved
  have sound := (eachAppended_sound (eventsOf batches) empty_sound).1
  rw [← bufferAfter_each batches empty_sound] at sound
  have moves : terminalByteSelectionPosition frames moved = _ :=
    moves_moved sound.distinct deltas selection
  refine ⟨moves, fun some' full => ?_⟩
  have there : terminalByteSelectionPosition frames moved ≠ none := by
    obtain ⟨earlier, last, rfl⟩ := (eq_nil_or_concat' deltas).resolve_left some'
    rw [moves, foldl_append, foldl_cons, foldl_nil]
    exact movedPosition_known full _ _
  cases at' : moved with
  | none => exact absurd (congrArg (terminalByteSelectionPosition frames) at') there
  | some byte =>
    have positive : 0 < rowWidth bytesPerRow := Nat.lt_of_lt_of_le Nat.one_pos (le_max_left _ _)
    obtain ⟨unknown, shown⟩ := rowIndexFrom_row positive byte frames [] 0
    rw [at'] at there
    obtain ⟨index, found⟩ := Option.ne_none_iff_exists'.mp (mt unknown.mp there)
    obtain ⟨k, row, rfl, placed, rest⟩ := shown index found
    exact ⟨byte, k, row, rfl, found, placed, rest⟩

end Moves

end PortMate.TerminalBytes
