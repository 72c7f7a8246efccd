import Mathlib.Data.Finset.Card
import Mathlib.Data.Rat.Floor
import PortMate.SessionModels

namespace PortMate.TerminalBytes

open List

/-- `Math.max(0, Math.trunc(number))`. -/
def wholeOf (number : ℚ) : Nat :=
  number.floor.toNat

structure TerminalBytesEvent where
  id : String
  sessionId : String
  ts : String
  direction : EventDirection
  stream : EventStream
  bytes : List ℚ
  originalLength : ℚ
  truncated : Bool
  eventId : Option String
  canonical : Option Bool

structure TerminalByteFrame extends TerminalBytesEvent where
  startOffset : ℚ

structure TerminalByteBuffer where
  frames : List TerminalByteFrame
  capturedBytes : Nat
  droppedBytes : Nat
  droppedFrames : Nat
  nextOffset : ℚ
  revision : Nat

structure TerminalByteBufferLimits where
  maxBytes : ℚ
  maxFrames : ℚ

def emptyTerminalByteBuffer : TerminalByteBuffer :=
  { frames := [], capturedBytes := 0, droppedBytes := 0, droppedFrames := 0, nextOffset := 0,
    revision := 0 }

/-- The bytes of an event that are bytes, as many as a buffer may hold. -/
def normalizedBytes (maxBytes : Nat) (event : TerminalBytesEvent) : List ℚ :=
  (event.bytes.filter fun byte => byte.isInt && 0 ≤ byte && byte ≤ 0xff).take maxBytes

def frameOf (event : TerminalBytesEvent) (bytes : List ℚ) (nextOffset : ℚ) : TerminalByteFrame :=
  let originalLength := max bytes.length (wholeOf event.originalLength)
  { event with
    bytes := bytes
    originalLength := originalLength
    truncated := event.truncated || bytes.length < originalLength
    startOffset := nextOffset }

/-- The local variables of `appendTerminalByteEvents`. -/
structure AppendState where
  frames : List TerminalByteFrame
  frameIds : Finset String
  frameHead : Nat
  capturedBytes : Nat
  droppedBytes : Nat
  droppedFrames : Nat
  nextOffset : ℚ
  revision : Nat
  changed : Bool

/-- The inner loop, over the frames from `frameHead` on. -/
def dropOldest (maxBytes maxFrames : Nat) : List TerminalByteFrame → AppendState → AppendState
  | [], state =>
    if state.capturedBytes > maxBytes then { state with frameHead := state.frameHead + 1 }
    else state
  | removed :: rest, state =>
    if rest.length + 1 > maxFrames ∨ state.capturedBytes > maxBytes then
      dropOldest maxBytes maxFrames rest
        { state with
          frameHead := state.frameHead + 1
          frameIds := state.frameIds.erase removed.id
          capturedBytes := state.capturedBytes - removed.bytes.length
          droppedBytes := state.droppedBytes + removed.bytes.length
          droppedFrames := state.droppedFrames + 1 }
    else state

/-- The frames that were dropped leave the array once they are many. -/
def compacted (state : AppendState) : AppendState :=
  if state.frameHead ≥ 256 ∧ state.frameHead * 2 ≥ state.frames.length then
    { state with frames := state.frames.drop state.frameHead, frameHead := 0 }
  else state

def AppendState.push (state : AppendState) (frame : TerminalByteFrame) : AppendState :=
  { state with
    frames := state.frames ++ [frame]
    frameIds := insert frame.id state.frameIds
    capturedBytes := state.capturedBytes + frame.bytes.length
    nextOffset := state.nextOffset + frame.originalLength
    revision := state.revision + 1
    changed := true }

def appendOne (maxBytes maxFrames : Nat) (state : AppendState) (event : TerminalBytesEvent) :
    AppendState :=
  if event.id = "" ∨ event.id ∈ state.frameIds then state
  else if normalizedBytes maxBytes event = [] then state
  else
    let pushed := state.push (frameOf event (normalizedBytes maxBytes event) state.nextOffset)
    compacted (dropOldest maxBytes maxFrames (pushed.frames.drop pushed.frameHead) pushed)

def appendTerminalByteEvents (current : TerminalByteBuffer) (events : List TerminalBytesEvent)
    (limits : TerminalByteBufferLimits) : TerminalByteBuffer :=
  let maxBytes := wholeOf limits.maxBytes
  let maxFrames := wholeOf limits.maxFrames
  if maxBytes = 0 ∨ maxFrames = 0 ∨ events = [] then current
  else
    let state := events.foldl (appendOne maxBytes maxFrames)
      { frames := current.frames
        frameIds := (current.frames.map fun frame => frame.id).toFinset
        frameHead := 0
        capturedBytes := current.capturedBytes
        droppedBytes := current.droppedBytes
        droppedFrames := current.droppedFrames
        nextOffset := current.nextOffset
        revision := current.revision
        changed := false }
    if !state.changed then current
    else
      { frames := if state.frameHead ≠ 0 then state.frames.drop state.frameHead else state.frames
        capturedBytes := state.capturedBytes
        droppedBytes := state.droppedBytes
        droppedFrames := state.droppedFrames
        nextOffset := state.nextOffset
        revision := state.revision }

def appendTerminalByteEvent (current : TerminalByteBuffer) (event : TerminalBytesEvent)
    (limits : TerminalByteBufferLimits) : TerminalByteBuffer :=
  appendTerminalByteEvents current [event] limits

structure TerminalByteSelection where
  frameId : String
  byteIndex : Int
  deriving DecidableEq

def totalBytes (frames : List TerminalByteFrame) : Nat :=
  (frames.map fun frame => frame.bytes.length).sum

/-- The loop of `terminalByteSelectionAt`. -/
def selectionFrom : List TerminalByteFrame → Int → Option TerminalByteSelection
  | [], _ => none
  | frame :: rest, remaining =>
    if remaining < frame.bytes.length then some { frameId := frame.id, byteIndex := remaining }
    else selectionFrom rest (remaining - frame.bytes.length)

def terminalByteSelectionAt (frames : List TerminalByteFrame) (absoluteIndex : Int) :
    Option TerminalByteSelection :=
  if totalBytes frames = 0 then none
  else selectionFrom frames (min (totalBytes frames - 1) (max 0 absoluteIndex))

/-- The loop of `terminalByteSelectionPosition`. -/
def positionFrom (selection : TerminalByteSelection) : List TerminalByteFrame → Int → Option Int
  | [], _ => none
  | frame :: rest, position =>
    if frame.id = selection.frameId then
      if selection.byteIndex < 0 ∨ selection.byteIndex ≥ frame.bytes.length then none
      else some (position + selection.byteIndex)
    else positionFrom selection rest (position + frame.bytes.length)

def terminalByteSelectionPosition (frames : List TerminalByteFrame)
    (selection : Option TerminalByteSelection) : Option Int :=
  selection.bind fun selection => positionFrom selection frames 0

def moveTerminalByteSelection (frames : List TerminalByteFrame)
    (selection : Option TerminalByteSelection) (delta : Int) : Option TerminalByteSelection :=
  if totalBytes frames = 0 then none
  else
    let target := match terminalByteSelectionPosition frames selection with
      | none => if delta < 0 then (totalBytes frames - 1 : Int) else 0
      | some current => min (totalBytes frames - 1) (max 0 (current + delta))
    terminalByteSelectionAt frames target

section Batches

variable {maxBytes maxFrames : Nat}

def frameNames (frames : List TerminalByteFrame) : List String :=
  frames.map fun frame => frame.id

/-- Each frame begins where the one before it ends. -/
def Contiguous : List TerminalByteFrame → ℚ → ℚ → Prop
  | [], start, stop => start = stop
  | frame :: rest, start, stop =>
    frame.startOffset = start ∧ Contiguous rest (start + frame.originalLength) stop

/-- A buffer of some frames without the oldest ones, as many as the limits ask for. -/
def trimmedBuffer (maxBytes maxFrames : Nat) :
    List TerminalByteFrame → TerminalByteBuffer → TerminalByteBuffer
  | [], buffer => { buffer with frames := [] }
  | removed :: rest, buffer =>
    if rest.length + 1 > maxFrames ∨ buffer.capturedBytes > maxBytes then
      trimmedBuffer maxBytes maxFrames rest
        { buffer with
          frames := rest
          capturedBytes := buffer.capturedBytes - removed.bytes.length
          droppedBytes := buffer.droppedBytes + removed.bytes.length
          droppedFrames := buffer.droppedFrames + 1 }
    else { buffer with frames := removed :: rest }

/-- A buffer with one more frame, before it is trimmed. -/
def TerminalByteBuffer.push (buffer : TerminalByteBuffer) (frame : TerminalByteFrame) :
    TerminalByteBuffer :=
  { buffer with
    frames := buffer.frames ++ [frame]
    capturedBytes := buffer.capturedBytes + frame.bytes.length
    nextOffset := buffer.nextOffset + frame.originalLength
    revision := buffer.revision + 1 }

def eventAppended (maxBytes maxFrames : Nat) (buffer : TerminalByteBuffer)
    (event : TerminalBytesEvent) : TerminalByteBuffer :=
  if event.id = "" ∨ event.id ∈ frameNames buffer.frames then buffer
  else if normalizedBytes maxBytes event = [] then buffer
  else
    let pushed := buffer.push (frameOf event (normalizedBytes maxBytes event) buffer.nextOffset)
    trimmedBuffer maxBytes maxFrames pushed.frames pushed

/-- The buffer that a state of the loop stands for. -/
def AppendState.buffer (state : AppendState) : TerminalByteBuffer :=
  { frames := state.frames.drop state.frameHead
    capturedBytes := state.capturedBytes
    droppedBytes := state.droppedBytes
    droppedFrames := state.droppedFrames
    nextOffset := state.nextOffset
    revision := state.revision }

/-- What the loop keeps: the set of ids is that of the frames that are left, each of which has its
own, and the count is that of their bytes. -/
structure AppendState.Sound (state : AppendState) : Prop where
  names : state.frameIds = (frameNames state.buffer.frames).toFinset
  distinct : (frameNames state.buffer.frames).Nodup
  captured : state.capturedBytes = totalBytes state.buffer.frames
  inside : state.frameHead ≤ state.frames.length

theorem dropOldest_buffer (remaining : List TerminalByteFrame) (state : AppendState)
    (here : state.frames.drop state.frameHead = remaining) (sound : state.Sound) :
    (dropOldest maxBytes maxFrames remaining state).buffer =
        trimmedBuffer maxBytes maxFrames remaining state.buffer ∧
      (dropOldest maxBytes maxFrames remaining state).Sound ∧
        (dropOldest maxBytes maxFrames remaining state).changed = state.changed := by
  induction remaining generalizing state with
  | nil =>
    have nothing : state.capturedBytes = 0 := by
      rw [sound.captured]
      simp only [AppendState.buffer, here]
      rfl
    unfold dropOldest trimmedBuffer
    rw [nothing, if_neg (Nat.not_lt_zero _)]
    exact ⟨by simp only [AppendState.buffer, here], sound, rfl⟩
  | cons removed rest ih =>
    have after : state.frames.drop (state.frameHead + 1) = rest := by
      rw [← tail_drop, here]
      rfl
    have inside : state.frameHead + 1 ≤ state.frames.length := by
      have length := congrArg List.length here
      rw [length_drop, length_cons] at length
      omega
    obtain ⟨names, distinct, captured, -⟩ := sound
    simp only [AppendState.buffer, here, frameNames, totalBytes, map_cons, sum_cons]
      at names distinct captured
    obtain ⟨fresh, others⟩ := nodup_cons.mp distinct
    unfold dropOldest trimmedBuffer
    simp only [show state.buffer.capturedBytes = state.capturedBytes from rfl]
    split
    · obtain ⟨same, kept⟩ := ih
        { state with
          frameHead := state.frameHead + 1
          frameIds := state.frameIds.erase removed.id
          capturedBytes := state.capturedBytes - removed.bytes.length
          droppedBytes := state.droppedBytes + removed.bytes.length
          droppedFrames := state.droppedFrames + 1 } after (by
        refine ⟨?_, ?_, ?_, inside⟩
        · simp only [AppendState.buffer, after, frameNames, names, toFinset_cons]
          exact Finset.erase_insert (by simpa using fresh)
        · simpa only [AppendState.buffer, after, frameNames] using others
        · simp only [AppendState.buffer, after, totalBytes, captured]
          exact Nat.add_sub_cancel_left _ _)
      refine ⟨?_, kept⟩
      rw [same, ← show _ = rest from after]
      rfl
    · refine ⟨by simp only [AppendState.buffer, here], ⟨?_, ?_, ?_, Nat.le_of_succ_le inside⟩, rfl⟩
      · simpa only [AppendState.buffer, here, frameNames, map_cons] using names
      · simpa only [AppendState.buffer, here, frameNames, map_cons] using distinct
      · simpa only [AppendState.buffer, here, totalBytes, map_cons, sum_cons]
          using captured

theorem compacted_buffer (state : AppendState) (sound : state.Sound) :
    (compacted state).buffer = state.buffer ∧ (compacted state).Sound ∧
      (compacted state).changed = state.changed := by
  unfold compacted
  split
  · exact ⟨rfl, ⟨sound.names, sound.distinct, sound.captured, Nat.zero_le _⟩, rfl⟩
  · exact ⟨rfl, sound, rfl⟩

theorem push_buffer (state : AppendState) (frame : TerminalByteFrame) (sound : state.Sound)
    (fresh : frame.id ∉ frameNames state.buffer.frames) :
    (state.push frame).buffer = state.buffer.push frame ∧ (state.push frame).Sound := by
  have frames : (state.push frame).buffer.frames = state.buffer.frames ++ [frame] :=
    drop_append_of_le_length sound.inside
  refine ⟨?_, ?_, ?_, ?_, ?_⟩
  · simp only [TerminalByteBuffer.push, ← frames]
    rfl
  · rw [frames]
    ext name
    simp [AppendState.push, sound.names, frameNames]
  · rw [frames]
    simp only [frameNames, map_append, map_cons, map_nil]
    exact nodup_append.mpr ⟨sound.distinct, nodup_singleton _, by
      rintro name mem other mem' rfl
      exact fresh (mem_singleton.mp mem' ▸ mem)⟩
  · rw [frames]
    simp [AppendState.push, sound.captured, totalBytes]
  · simpa [AppendState.push] using Nat.le_succ_of_le sound.inside

theorem appendOne_buffer (state : AppendState) (event : TerminalBytesEvent) (sound : state.Sound) :
    (appendOne maxBytes maxFrames state event).buffer =
        eventAppended maxBytes maxFrames state.buffer event ∧
      (appendOne maxBytes maxFrames state event).Sound ∧
        ((appendOne maxBytes maxFrames state event).changed = false →
          appendOne maxBytes maxFrames state event = state) := by
  have named : event.id ∈ state.frameIds ↔ event.id ∈ frameNames state.buffer.frames := by
    rw [sound.names, mem_toFinset]
  unfold appendOne eventAppended
  simp only [named]
  split
  next => exact ⟨rfl, sound, fun _ => rfl⟩
  next known =>
    split
    · exact ⟨rfl, sound, fun _ => rfl⟩
    · have fresh : event.id ∉ frameNames state.buffer.frames := fun mem => known (.inr mem)
      obtain ⟨pushed, kept⟩ := push_buffer state
        (frameOf event (normalizedBytes maxBytes event) state.nextOffset) sound fresh
      obtain ⟨dropped, trimmed, changed⟩ := @dropOldest_buffer maxBytes maxFrames _ _ rfl kept
      obtain ⟨same, compact, unchanged⟩ := compacted_buffer _ trimmed
      refine ⟨?_, compact, fun unmoved => ?_⟩
      · rw [same, dropped, pushed]
        exact congrArg (trimmedBuffer maxBytes maxFrames · _)
          (congrArg TerminalByteBuffer.frames pushed)
      · exact absurd (unmoved.symm.trans (unchanged.trans changed)) Bool.false_ne_true

theorem appendAll_buffer (events : List TerminalBytesEvent) (state : AppendState)
    (sound : state.Sound) :
    (events.foldl (appendOne maxBytes maxFrames) state).buffer =
        events.foldl (eventAppended maxBytes maxFrames) state.buffer ∧
      ((events.foldl (appendOne maxBytes maxFrames) state).changed = false →
        events.foldl (appendOne maxBytes maxFrames) state = state) := by
  induction events generalizing state with
  | nil => exact ⟨rfl, fun _ => rfl⟩
  | cons event events ih =>
    obtain ⟨one, kept, unmoved⟩ := @appendOne_buffer maxBytes maxFrames state event sound
    obtain ⟨rest, still⟩ := ih _ kept
    rw [foldl_cons, foldl_cons, ← one]
    refine ⟨rest, fun unchanged => ?_⟩
    have same := still unchanged
    rw [same] at unchanged ⊢
    exact unmoved unchanged

/-- What a buffer keeps to: its count is that of the bytes of its frames, each frame has its own id,
and one begins where the one before it ends. -/
structure TerminalByteBuffer.Sound (buffer : TerminalByteBuffer) : Prop where
  captured : buffer.capturedBytes = totalBytes buffer.frames
  distinct : (frameNames buffer.frames).Nodup
  contiguous : ∃ start, Contiguous buffer.frames start buffer.nextOffset

theorem appendTerminalByteEvents_each {current : TerminalByteBuffer} (sound : current.Sound)
    (events : List TerminalBytesEvent) (limits : TerminalByteBufferLimits) :
    appendTerminalByteEvents current events limits =
      if wholeOf limits.maxBytes = 0 ∨ wholeOf limits.maxFrames = 0 then current
      else events.foldl (eventAppended (wholeOf limits.maxBytes) (wholeOf limits.maxFrames))
        current := by
  unfold appendTerminalByteEvents
  by_cases closed : wholeOf limits.maxBytes = 0 ∨ wholeOf limits.maxFrames = 0
  · rw [if_pos closed, if_pos (closed.imp id .inl)]
  rw [if_neg closed]
  by_cases empty : events = []
  · rw [if_pos (.inr (.inr empty)), empty]
    rfl
  rw [if_neg (by
    rintro (no | no | none)
    · exact closed (.inl no)
    · exact closed (.inr no)
    · exact empty none)]
  obtain ⟨same, unmoved⟩ := @appendAll_buffer (wholeOf limits.maxBytes) (wholeOf limits.maxFrames)
    events
    { frames := current.frames, frameIds := (current.frames.map fun frame => frame.id).toFinset
      frameHead := 0, capturedBytes := current.capturedBytes, droppedBytes := current.droppedBytes
      droppedFrames := current.droppedFrames, nextOffset := current.nextOffset
      revision := current.revision, changed := false }
    ⟨rfl, sound.distinct, sound.captured, Nat.zero_le _⟩
  rw [← show _ = events.foldl _ current from same]
  generalize events.foldl _ _ = state at unmoved ⊢
  cases changed : state.changed with
  | false =>
    rw [unmoved changed]
    rfl
  | true =>
    simp only [changed, Bool.not_true, Bool.false_eq_true, if_false, AppendState.buffer]
    by_cases first : state.frameHead = 0
    · rw [if_neg (not_not_intro first), first, drop_zero]
    · rw [if_pos first]

theorem trimmedBuffer_sound (frames : List TerminalByteFrame) (buffer : TerminalByteBuffer)
    (here : buffer.frames = frames) (sound : buffer.Sound) :
    (trimmedBuffer maxBytes maxFrames frames buffer).Sound ∧
      (trimmedBuffer maxBytes maxFrames frames buffer).capturedBytes ≤ maxBytes ∧
      (trimmedBuffer maxBytes maxFrames frames buffer).frames.length ≤ maxFrames ∧
      (trimmedBuffer maxBytes maxFrames frames buffer).capturedBytes +
          (trimmedBuffer maxBytes maxFrames frames buffer).droppedBytes =
        buffer.capturedBytes + buffer.droppedBytes := by
  induction frames generalizing buffer with
  | nil =>
    have captured := sound.captured
    rw [here] at captured
    have nothing : buffer.capturedBytes = 0 := captured
    have same : { buffer with frames := [] } = buffer := by rw [← here]
    unfold trimmedBuffer
    rw [same, here, nothing]
    exact ⟨sound, Nat.zero_le _, Nat.zero_le _, rfl⟩
  | cons removed rest ih =>
    have same : { buffer with frames := removed :: rest } = buffer := by rw [← here]
    unfold trimmedBuffer
    split
    next =>
      obtain ⟨captured, distinct, start, contiguous⟩ := sound
      rw [here] at captured distinct contiguous
      simp only [totalBytes, map_cons, sum_cons] at captured
      have counted : buffer.capturedBytes - removed.bytes.length = totalBytes rest := by
        unfold totalBytes
        omega
      obtain ⟨kept, bytes, count, sum⟩ := ih
        { buffer with
          frames := rest
          capturedBytes := buffer.capturedBytes - removed.bytes.length
          droppedBytes := buffer.droppedBytes + removed.bytes.length
          droppedFrames := buffer.droppedFrames + 1 } rfl
        ⟨counted, (nodup_cons.mp distinct).2, _, contiguous.2⟩
      refine ⟨kept, bytes, count, sum.trans ?_⟩
      dsimp only
      omega
    next within =>
      rw [same, here]
      simp only [not_or, Nat.not_lt] at within
      exact ⟨sound, within.2, within.1, rfl⟩

theorem Contiguous.push {frames : List TerminalByteFrame} {start stop : ℚ}
    (contiguous : Contiguous frames start stop) {frame : TerminalByteFrame}
    (next : frame.startOffset = stop) :
    Contiguous (frames ++ [frame]) start (stop + frame.originalLength) := by
  induction frames generalizing start with
  | nil =>
    have same : start = stop := contiguous
    exact ⟨next.trans same.symm, by rw [same]; rfl⟩
  | cons first rest ih => exact ⟨contiguous.1, ih contiguous.2⟩

theorem TerminalByteBuffer.Sound.push {buffer : TerminalByteBuffer} (sound : buffer.Sound)
    (frame : TerminalByteFrame) (fresh : frame.id ∉ frameNames buffer.frames)
    (next : frame.startOffset = buffer.nextOffset) : (buffer.push frame).Sound := by
  obtain ⟨captured, distinct, start, contiguous⟩ := sound
  refine ⟨?_, ?_, start, contiguous.push next⟩
  · simp [TerminalByteBuffer.push, captured, totalBytes]
  · simp only [TerminalByteBuffer.push, frameNames, map_append, map_cons, map_nil]
    exact nodup_append.mpr ⟨distinct, nodup_singleton _, by
      rintro name mem other mem' rfl
      exact fresh (mem_singleton.mp mem' ▸ mem)⟩

/-- The bytes that a buffer takes of an event: none of one without an id or with that of a frame it
has, and at most as many as it may hold. -/
def takenBytes (maxBytes : Nat) (buffer : TerminalByteBuffer) (event : TerminalBytesEvent) : Nat :=
  if event.id = "" ∨ event.id ∈ frameNames buffer.frames then 0
  else (normalizedBytes maxBytes event).length

theorem eventAppended_sound {buffer : TerminalByteBuffer} (sound : buffer.Sound)
    (event : TerminalBytesEvent) :
    (eventAppended maxBytes maxFrames buffer event).Sound ∧
      (buffer.capturedBytes ≤ maxBytes ∧ buffer.frames.length ≤ maxFrames →
        (eventAppended maxBytes maxFrames buffer event).capturedBytes ≤ maxBytes ∧
          (eventAppended maxBytes maxFrames buffer event).frames.length ≤ maxFrames) ∧
      (eventAppended maxBytes maxFrames buffer event).capturedBytes +
          (eventAppended maxBytes maxFrames buffer event).droppedBytes =
        buffer.capturedBytes + buffer.droppedBytes + takenBytes maxBytes buffer event := by
  unfold eventAppended takenBytes
  split
  next => exact ⟨sound, id, rfl⟩
  next known =>
    split
    next none => exact ⟨sound, id, by rw [none]; rfl⟩
    next =>
      have pushed := sound.push
        (frameOf event (normalizedBytes maxBytes event) buffer.nextOffset)
        (fun mem => known (.inr mem)) rfl
      obtain ⟨kept, bytes, count, sum⟩ :=
        @trimmedBuffer_sound maxBytes maxFrames _ _ rfl pushed
      refine ⟨kept, fun _ => ⟨bytes, count⟩, sum.trans ?_⟩
      simp only [TerminalByteBuffer.push, frameOf]
      omega

end Batches

section Runs

/-- The bytes that a buffer takes of an event when it is appended. -/
def bytesTaken (buffer : TerminalByteBuffer) (event : TerminalBytesEvent)
    (limits : TerminalByteBufferLimits) : Nat :=
  if wholeOf limits.maxFrames = 0 then 0 else takenBytes (wholeOf limits.maxBytes) buffer event

/-- The bytes received from events appended one after the other. -/
def bytesReceived : TerminalByteBuffer → List (TerminalBytesEvent × TerminalByteBufferLimits) → Nat
  | _, [] => 0
  | buffer, (event, limits) :: rest =>
    bytesTaken buffer event limits +
      bytesReceived (appendTerminalByteEvent buffer event limits) rest

/-- The buffer after some batches, each appended with limits of its own. -/
def bufferAfter (batches : List (List TerminalBytesEvent × TerminalByteBufferLimits)) :
    TerminalByteBuffer :=
  batches.foldl (fun buffer batch => appendTerminalByteEvents buffer batch.1 batch.2)
    emptyTerminalByteBuffer

/-- The events of some batches, each with the limits of its batch. -/
def eventsOf (batches : List (List TerminalBytesEvent × TerminalByteBufferLimits)) :
    List (TerminalBytesEvent × TerminalByteBufferLimits) :=
  batches.flatMap fun batch => batch.1.map fun event => (event, batch.2)

theorem empty_sound : emptyTerminalByteBuffer.Sound :=
  ⟨rfl, nodup_nil, 0, rfl⟩

theorem takenBytes_zero (buffer : TerminalByteBuffer) (event : TerminalBytesEvent) :
    takenBytes 0 buffer event = 0 := by
  unfold takenBytes normalizedBytes
  rw [take_zero]
  split <;> rfl

theorem appendTerminalByteEvent_sound {buffer : TerminalByteBuffer} (sound : buffer.Sound)
    (event : TerminalBytesEvent) (limits : TerminalByteBufferLimits) :
    (appendTerminalByteEvent buffer event limits).Sound ∧
      (buffer.capturedBytes ≤ wholeOf limits.maxBytes ∧
          buffer.frames.length ≤ wholeOf limits.maxFrames →
        (appendTerminalByteEvent buffer event limits).capturedBytes ≤ wholeOf limits.maxBytes ∧
          (appendTerminalByteEvent buffer event limits).frames.length ≤
            wholeOf limits.maxFrames) ∧
      (appendTerminalByteEvent buffer event limits).capturedBytes +
          (appendTerminalByteEvent buffer event limits).droppedBytes =
        buffer.capturedBytes + buffer.droppedBytes + bytesTaken buffer event limits := by
  unfold appendTerminalByteEvent bytesTaken
  rw [appendTerminalByteEvents_each sound]
  split
  next closed =>
    refine ⟨sound, id, ?_⟩
    split
    next => rfl
    next some' =>
      rw [closed.resolve_right some', takenBytes_zero]
      rfl
  next opened =>
    rw [if_neg (fun none => opened (.inr none)), foldl_cons, foldl_nil]
    exact eventAppended_sound sound event

theorem appendEach_eq {buffer : TerminalByteBuffer} (sound : buffer.Sound)
    (events : List TerminalBytesEvent) (limits : TerminalByteBufferLimits) :
    appendTerminalByteEvents buffer events limits =
      events.foldl (fun buffer event => appendTerminalByteEvent buffer event limits) buffer := by
  induction events generalizing buffer with
  | nil =>
    unfold appendTerminalByteEvents
    rw [if_pos (.inr (.inr rfl))]
    rfl
  | cons event events ih =>
    have one := (appendTerminalByteEvent_sound sound event limits).1
    rw [foldl_cons, ← ih one, appendTerminalByteEvents_each sound,
      appendTerminalByteEvents_each one]
    unfold appendTerminalByteEvent
    rw [appendTerminalByteEvents_each sound]
    split <;> rfl

theorem eachAppended_sound (events : List (TerminalBytesEvent × TerminalByteBufferLimits))
    {buffer : TerminalByteBuffer} (sound : buffer.Sound) :
    let after := events.foldl (fun buffer event => appendTerminalByteEvent buffer event.1 event.2)
      buffer
    after.Sound ∧
      after.capturedBytes + after.droppedBytes =
        buffer.capturedBytes + buffer.droppedBytes + bytesReceived buffer events ∧
      ∀ limits, (∀ event ∈ events, event.2 = limits) →
        buffer.capturedBytes ≤ wholeOf limits.maxBytes ∧
            buffer.frames.length ≤ wholeOf limits.maxFrames →
          after.capturedBytes ≤ wholeOf limits.maxBytes ∧
            after.frames.length ≤ wholeOf limits.maxFrames := by
  induction events generalizing buffer with
  | nil => exact ⟨sound, rfl, fun _ _ within => within⟩
  | cons event events ih =>
    obtain ⟨kept, within, counted⟩ := appendTerminalByteEvent_sound sound event.1 event.2
    obtain ⟨after, sum, bounded⟩ := ih kept
    refine ⟨after, sum.trans ?_, fun limits same fits => ?_⟩
    · rw [counted]
      exact Nat.add_assoc _ _ _
    · have own := same event mem_cons_self
      rw [own] at within
      exact bounded limits (fun other mem => same other (mem_cons_of_mem _ mem))
        (by rw [own]; exact within fits)

theorem bufferAfter_each (batches : List (List TerminalBytesEvent × TerminalByteBufferLimits))
    {buffer : TerminalByteBuffer} (sound : buffer.Sound) :
    batches.foldl (fun buffer batch => appendTerminalByteEvents buffer batch.1 batch.2) buffer =
      (eventsOf batches).foldl
        (fun buffer event => appendTerminalByteEvent buffer event.1 event.2) buffer := by
  induction batches generalizing buffer with
  | nil => rfl
  | cons batch batches ih =>
    have each : appendTerminalByteEvents buffer batch.1 batch.2 =
        (batch.1.map fun event => (event, batch.2)).foldl
          (fun buffer event => appendTerminalByteEvent buffer event.1 event.2) buffer := by
      rw [appendEach_eq sound, foldl_map]
    have kept := (eachAppended_sound (batch.1.map fun event => (event, batch.2)) sound).1
    rw [← each] at kept
    rw [foldl_cons, ih kept, show eventsOf (batch :: batches) = _ ++ eventsOf batches from
      flatMap_cons, foldl_append, ← each]

end Runs

section Positions

variable {frames : List TerminalByteFrame}

theorem selectionFrom_position {remaining : Int} (distinct : (frameNames frames).Nodup)
    (low : 0 ≤ remaining) (high : remaining < totalBytes frames) (before : Int) :
    ∃ selection, selectionFrom frames remaining = some selection ∧
      selection.frameId ∈ frameNames frames ∧
        positionFrom selection frames before = some (before + remaining) := by
  induction frames generalizing remaining before with
  | nil =>
    have none : remaining < 0 := high
    omega
  | cons frame rest ih =>
    obtain ⟨fresh, others⟩ := nodup_cons.mp distinct
    unfold selectionFrom
    split
    next inside =>
      refine ⟨_, rfl, mem_cons_self, ?_⟩
      unfold positionFrom
      rw [if_pos rfl, if_neg (by dsimp only; omega)]
    next past =>
      have total : (totalBytes (frame :: rest) : Int) = frame.bytes.length + totalBytes rest := by
        simp [totalBytes]
      obtain ⟨selection, found, mem, at'⟩ := @ih (remaining - frame.bytes.length) others
        (by omega) (by omega) (before + frame.bytes.length)
      refine ⟨selection, found, mem_cons_of_mem _ mem, ?_⟩
      unfold positionFrom
      have other : frame.id ≠ selection.frameId := by
        intro same
        rw [← same] at mem
        exact fresh mem
      rw [if_neg other, at']
      exact congrArg some (by omega)

theorem positionFrom_selection {selection : TerminalByteSelection} {before position : Int}
    (found : positionFrom selection frames before = some position) :
    before ≤ position ∧ position - before < totalBytes frames ∧
      selectionFrom frames (position - before) = some selection := by
  induction frames generalizing before with
  | nil => exact absurd found.symm (Option.some_ne_none _)
  | cons frame rest ih =>
    have total : (totalBytes (frame :: rest) : Int) = frame.bytes.length + totalBytes rest := by
      simp [totalBytes]
    unfold positionFrom at found
    unfold selectionFrom
    split at found
    next same =>
      split at found
      next => exact absurd found.symm (Option.some_ne_none _)
      next inside =>
        have place := Option.some.inj found
        simp only [not_or, Int.not_lt] at inside
        refine ⟨by omega, by omega, ?_⟩
        rw [if_pos (by omega), same, show position - before = selection.byteIndex by omega]
    next =>
      obtain ⟨low, high, at'⟩ := ih found
      refine ⟨by omega, by omega, ?_⟩
      rw [if_neg (by omega), show position - before - frame.bytes.length =
        position - (before + frame.bytes.length) by omega, at']

theorem position_of_selectionAt (distinct : (frameNames frames).Nodup) {position : Int}
    (low : 0 ≤ position) (high : position < totalBytes frames) :
    ∃ selection, terminalByteSelectionAt frames position = some selection ∧
      terminalByteSelectionPosition frames (some selection) = some position := by
  obtain ⟨selection, found, -, at'⟩ := selectionFrom_position distinct low high 0
  refine ⟨selection, ?_, ?_⟩
  · unfold terminalByteSelectionAt
    rw [if_neg (by omega), max_eq_right low, min_eq_right (by omega)]
    exact found
  · rw [Int.zero_add] at at'
    exact at'

theorem selectionAt_position {selection : TerminalByteSelection} {position : Int}
    (found : terminalByteSelectionPosition frames (some selection) = some position) :
    0 ≤ position ∧ position < totalBytes frames ∧
      terminalByteSelectionAt frames position = some selection := by
  have found : positionFrom selection frames 0 = some position := found
  obtain ⟨low, high, at'⟩ := positionFrom_selection found
  rw [Int.sub_zero] at high at'
  refine ⟨low, high, ?_⟩
  unfold terminalByteSelectionAt
  rw [if_neg (by omega), max_eq_right low, min_eq_right (by omega)]
  exact at'

theorem moveTerminalByteSelection_position (distinct : (frameNames frames).Nodup)
    {selection : TerminalByteSelection} {position : Int} (delta : Int)
    (found : terminalByteSelectionPosition frames (some selection) = some position) :
    ∃ moved, moveTerminalByteSelection frames (some selection) delta = some moved ∧
      terminalByteSelectionPosition frames (some moved) =
        some (min ((totalBytes frames : Int) - 1) (max 0 (position + delta))) := by
  obtain ⟨low, high, -⟩ := selectionAt_position found
  unfold moveTerminalByteSelection
  rw [if_neg (by omega), found]
  exact position_of_selectionAt distinct (le_min (by omega) (le_max_left _ _))
    (lt_of_le_of_lt (min_le_left _ _) (by omega))

end Positions

/-- After any batches, whatever the limits of each, the counts, ids and offsets of a buffer hold,
what it kept and dropped is what it took of the events, it is within limits that do not change, a
batch is appended as its events one by one are, and positions and bytes are each other's inverse. -/
theorem terminal_byte_buffer_laws
    (batches : List (List TerminalBytesEvent × TerminalByteBufferLimits)) :
    (bufferAfter batches).Sound ∧
      (bufferAfter batches).capturedBytes + (bufferAfter batches).droppedBytes =
        bytesReceived emptyTerminalByteBuffer (eventsOf batches) ∧
      (∀ limits, (∀ batch ∈ batches, batch.2 = limits) →
        (bufferAfter batches).capturedBytes ≤ wholeOf limits.maxBytes ∧
          (bufferAfter batches).frames.length ≤ wholeOf limits.maxFrames) ∧
      (∀ events limits, appendTerminalByteEvents (bufferAfter batches) events limits =
        events.foldl (fun buffer event => appendTerminalByteEvent buffer event limits)
          (bufferAfter batches)) ∧
      (∀ position : Int, 0 ≤ position → position < totalBytes (bufferAfter batches).frames →
        ∃ selection,
          terminalByteSelectionAt (bufferAfter batches).frames position = some selection ∧
          terminalByteSelectionPosition (bufferAfter batches).frames (some selection) =
            some position) ∧
      ∀ selection position,
        terminalByteSelectionPosition (bufferAfter batches).frames (some selection) =
            some position →
          terminalByteSelectionAt (bufferAfter batches).frames position = some selection := by
  have each := bufferAfter_each batches empty_sound
  obtain ⟨sound, counted, within⟩ := eachAppended_sound (eventsOf batches) empty_sound
  rw [← each] at sound counted within
  refine ⟨sound, counted.trans (Nat.zero_add _), fun limits same => ?_,
    fun events limits => appendEach_eq sound events limits,
    fun position low high => position_of_selectionAt sound.distinct low high,
    fun selection position found => (selectionAt_position found).2.2⟩
  refine within limits (fun event mem => ?_) ⟨Nat.zero_le _, Nat.zero_le _⟩
  obtain ⟨batch, given, of⟩ := mem_flatMap.mp mem
  obtain ⟨-, -, rfl⟩ := mem_map.mp of
  exact same batch given

def longEvent : TerminalBytesEvent :=
  { id := "frame", sessionId := "session", ts := "", direction := .inbound, stream := .stdout,
    bytes := [1, 2, 3], originalLength := 3, truncated := false, eventId := none,
    canonical := none }

/-- Bytes of an event past the limit are neither kept nor counted as dropped. -/
theorem bytes_past_limit_uncounted :
    let buffer := appendTerminalByteEvent emptyTerminalByteBuffer longEvent
      { maxBytes := 2, maxFrames := 1 }
    buffer.capturedBytes + buffer.droppedBytes ≠ longEvent.bytes.length := by
  decide

end PortMate.TerminalBytes
