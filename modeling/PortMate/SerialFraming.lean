import Mathlib.Data.List.Infix
import PortMate.SerialAnalyzer

namespace PortMate

open List Option Transducer

/-- The bytes cut after every piece that ends, and what is pending then. -/
def splitBytes (ends : List UInt8 → Bool) : List UInt8 → List UInt8 → List (List UInt8) × List UInt8
  | pending, [] => ([], pending)
  | pending, byte :: bytes =>
    if ends (pending ++ [byte]) then
      ((pending ++ [byte]) :: (splitBytes ends [] bytes).1, (splitBytes ends [] bytes).2)
    else splitBytes ends (pending ++ [byte]) bytes

section SplitBytes

variable {ends : List UInt8 → Bool}

theorem splitBytes_flatten (pending bytes : List UInt8) :
    (splitBytes ends pending bytes).1.flatten ++ (splitBytes ends pending bytes).2 =
      pending ++ bytes := by
  induction bytes generalizing pending with
  | nil => simp [splitBytes]
  | cons byte bytes ih =>
    unfold splitBytes
    split
    · have rest := ih []
      rw [nil_append] at rest
      rw [flatten_cons, append_assoc, rest]
      simp
    · rw [ih, append_assoc, singleton_append]

theorem splitBytes_ends (pending bytes : List UInt8) :
    ∀ piece ∈ (splitBytes ends pending bytes).1, ends piece = true := by
  induction bytes generalizing pending with
  | nil => exact fun _ none => absurd none not_mem_nil
  | cons byte bytes ih =>
    unfold splitBytes
    split
    next complete =>
      intro piece member
      rcases mem_cons.mp member with rfl | later
      · exact complete
      · exact ih [] piece later
    next => exact ih _

theorem splitBytes_append (pending bytes more : List UInt8) :
    splitBytes ends pending (bytes ++ more) =
      ((splitBytes ends pending bytes).1 ++
          (splitBytes ends (splitBytes ends pending bytes).2 more).1,
        (splitBytes ends (splitBytes ends pending bytes).2 more).2) := by
  induction bytes generalizing pending with
  | nil => simp [splitBytes]
  | cons byte bytes ih =>
    rw [cons_append]
    conv_lhs => unfold splitBytes
    conv_rhs => rw [splitBytes.eq_2]
    split
    · rw [ih]; rfl
    · exact ih _

def Unended (ends : List UInt8 → Bool) (pending : List UInt8) : Prop :=
  splitBytes ends [] pending = ([], pending)

theorem Unended.nil : Unended ends [] := by
  rfl

theorem Unended.splitBytes {pending : List UInt8} (unended : Unended ends pending)
    (bytes : List UInt8) : splitBytes ends [] (pending ++ bytes) = splitBytes ends pending bytes := by
  rw [splitBytes_append, unended]
  rfl

theorem Unended.rest {pending : List UInt8} (unended : Unended ends pending) (bytes : List UInt8) :
    Unended ends (PortMate.splitBytes ends pending bytes).2 := by
  induction bytes generalizing pending with
  | nil => exact unended
  | cons byte bytes ih =>
    conv => arg 2; unfold PortMate.splitBytes
    split
    next => exact ih Unended.nil
    next open_ =>
      refine ih ?_
      unfold Unended
      rw [unended.splitBytes [byte]]
      unfold PortMate.splitBytes
      rw [if_neg open_]
      rfl

end SplitBytes

/-- A cut of the captured bytes as the analyzer sees it. -/
abbrev Chunk := EventDirection × List UInt8

/-- Neighbouring chunks of one direction joined. -/
def directionRuns : List Chunk → List Chunk
  | [] => []
  | (direction, bytes) :: chunks =>
    match directionRuns chunks with
    | [] => [(direction, bytes)]
    | (next, more) :: runs =>
      if direction = next then (direction, bytes ++ more) :: runs
      else (direction, bytes) :: (next, more) :: runs

variable (direction : EventDirection)

theorem directionRuns_head (bytes : List UInt8) (chunks : List Chunk) :
    ∃ more runs, directionRuns ((direction, bytes) :: chunks) = (direction, bytes ++ more) :: runs := by
  unfold directionRuns
  split
  next => exact ⟨[], [], by rw [append_nil]⟩
  next next more runs _ =>
    split
    · exact ⟨more, runs, rfl⟩
    · exact ⟨[], (next, more) :: runs, by rw [append_nil]⟩

theorem directionRuns_join (bytes more : List UInt8) (chunks : List Chunk) :
    directionRuns ((direction, bytes) :: (direction, more) :: chunks) =
      directionRuns ((direction, bytes ++ more) :: chunks) := by
  rw [directionRuns, directionRuns.eq_2 direction (bytes ++ more)]
  rw [directionRuns]
  cases directionRuns chunks with
  | nil => simp
  | cons run runs =>
    by_cases same : direction = run.1
    · simp [same, append_assoc]
    · simp [same]

/-- A frame as far as it does not tell of the chunks that it came in. -/
abbrev FlushContent := EventDirection × List UInt8 × Bool

def SerialFlush.content (flush : SerialFlush) : FlushContent :=
  (flush.1.direction, flush.1.bytes, flush.2)

/-- The frames of a run, the last of them incomplete. -/
def runContent (ends : List UInt8 → Bool) (run : Chunk) : List FlushContent :=
  ((splitBytes ends [] run.2).1.map fun piece => (run.1, piece, true)) ++
    if (splitBytes ends [] run.2).2 = [] then [] else [(run.1, (splitBytes ends [] run.2).2, false)]

def runsContent (ends : List UInt8 → Bool) (chunks : List Chunk) : List FlushContent :=
  (directionRuns chunks).flatMap (runContent ends)

section RunsContent

variable {ends : List UInt8 → Bool}

theorem runContent_append (direction : EventDirection) (bytes more : List UInt8) :
    runContent ends (direction, bytes ++ more) =
      ((splitBytes ends [] bytes).1.map fun piece => (direction, piece, true)) ++
        runContent ends (direction, (splitBytes ends [] bytes).2 ++ more) := by
  have rest : Unended ends (splitBytes ends [] bytes).2 := Unended.nil.rest bytes
  unfold runContent
  dsimp only
  rw [rest.splitBytes, splitBytes_append, map_append, append_assoc]

theorem runsContent_take (direction : EventDirection) (bytes : List UInt8) (chunks : List Chunk) :
    runsContent ends ((direction, bytes) :: chunks) =
      ((splitBytes ends [] bytes).1.map fun piece => (direction, piece, true)) ++
        runsContent ends ((direction, (splitBytes ends [] bytes).2) :: chunks) := by
  have alone := @runContent_append ends direction bytes []
  rw [append_nil, append_nil] at alone
  unfold runsContent
  rw [directionRuns, directionRuns.eq_2 direction (splitBytes ends [] bytes).2]
  cases directionRuns chunks with
  | nil =>
    simp only [flatMap_cons, flatMap_nil, append_nil]
    exact alone
  | cons run runs =>
    obtain ⟨next, more⟩ := run
    by_cases same : direction = next
    · simp only [same, ↓reduceIte, flatMap_cons]
      rw [runContent_append next bytes more, append_assoc]
    · simp only [same, ↓reduceIte, flatMap_cons]
      rw [alone, append_assoc]

theorem runsContent_nil_cons (direction : EventDirection) (chunks : List Chunk) :
    runsContent ends ((direction, []) :: chunks) = runsContent ends chunks := by
  unfold runsContent
  rw [directionRuns]
  cases directionRuns chunks with
  | nil => rfl
  | cons run runs =>
    obtain ⟨next, more⟩ := run
    by_cases same : direction = next
    · subst same
      simp
    · simp only [same, ↓reduceIte, flatMap_cons]
      rfl

theorem runsContent_switch {direction next : EventDirection} (other : direction ≠ next)
    (bytes more : List UInt8) (chunks : List Chunk) :
    runsContent ends ((direction, bytes) :: (next, more) :: chunks) =
      runContent ends (direction, bytes) ++ runsContent ends ((next, more) :: chunks) := by
  obtain ⟨rest, runs, head⟩ := directionRuns_head next more chunks
  unfold runsContent
  rw [directionRuns, head]
  simp [other]

end RunsContent

def pendingBytes (pending : Option PendingSerialFrame) : List UInt8 :=
  (pending.map (·.bytes)).getD []

/-- A pending frame holds a byte, and none of its beginnings is complete. -/
def PendingOk (ends : List UInt8 → Bool) (pending : PendingSerialFrame) : Prop :=
  pending.bytes ≠ [] ∧ Unended ends pending.bytes

def pendingContent (pending : Option PendingSerialFrame) : List FlushContent :=
  (pending.map fun pending => (pending.direction, pending.bytes, false)).toList

def wire (direction : EventDirection) (contents : List FlushContent) : List UInt8 :=
  (contents.filter fun content => content.1 = direction).flatMap fun content => content.2.1

theorem wire_append (contents more : List FlushContent) :
    wire direction (contents ++ more) = wire direction contents ++ wire direction more := by
  unfold wire
  rw [List.filter_append, flatMap_append]

theorem wire_pieces (direction taken : EventDirection) (pieces : List (List UInt8)) :
    wire direction (pieces.map fun piece => (taken, piece, true)) =
      if taken = direction then pieces.flatten else [] := by
  induction pieces with
  | nil => simp [wire]
  | cons piece pieces ih =>
    rw [map_cons, ← singleton_append, wire_append, ih]
    by_cases same : taken = direction <;> simp [wire, same]

theorem wire_pendingContent {direction taken : EventDirection} {pending : Option PendingSerialFrame}
    (same : ∀ old ∈ pending, old.direction = taken) :
    wire direction (pendingContent pending) =
      if taken = direction then pendingBytes pending else [] := by
  cases pending with
  | none => simp [wire, pendingContent, pendingBytes]
  | some old =>
    rw [← same old rfl]
    by_cases hit : old.direction = direction <;> simp [wire, pendingContent, pendingBytes, hit]

namespace Framing

variable (framing : Framing)

theorem takeByte_run (frame : SerialCaptureFrame) (pending : Option PendingSerialFrame)
    (same : ∀ old ∈ pending, old.direction = frame.direction ∧ old.bytes ≠ [])
    (bytes : List UInt8) :
    (∀ left ∈ ((framing.takeByte frame).run pending bytes).1,
        left.direction = frame.direction ∧ left.bytes ≠ []) ∧
      ((framing.takeByte frame).run pending bytes).2.map SerialFlush.content =
        (splitBytes framing.ends (pendingBytes pending) bytes).1.map
          (fun piece => (frame.direction, piece, true)) ∧
      pendingBytes ((framing.takeByte frame).run pending bytes).1 =
        (splitBytes framing.ends (pendingBytes pending) bytes).2 := by
  induction bytes generalizing pending with
  | nil => exact ⟨same, rfl, rfl⟩
  | cons byte bytes ih =>
    have grown : (appendPendingSerialByte pending frame byte).bytes = pendingBytes pending ++ [byte] := by
      cases pending <;> rfl
    have direction : (appendPendingSerialByte pending frame byte).direction = frame.direction := by
      cases pending with
      | none => rfl
      | some old => exact (same old rfl).1
    rw [run_cons]
    unfold splitBytes
    by_cases complete : framing.ends (pendingBytes pending ++ [byte]) = true
    · have step : (framing.takeByte frame).step pending byte =
          (none, [(appendPendingSerialByte pending frame byte, true)]) := by
        unfold takeByte
        dsimp only
        rw [grown, if_pos complete]
      obtain ⟨left, content, rest⟩ := ih none (fun _ none => absurd none (by simp))
      rw [step, if_pos complete]
      refine ⟨left, ?_, rest⟩
      rw [map_append, content, map_cons]
      simp [SerialFlush.content, grown, direction, pendingBytes]
    · have step : (framing.takeByte frame).step pending byte =
          (some (appendPendingSerialByte pending frame byte), []) := by
        unfold takeByte
        dsimp only
        rw [grown, if_neg complete]
      have next := ih (some (appendPendingSerialByte pending frame byte)) (by
        intro old taken
        obtain rfl := Option.some.inj taken
        rw [grown]
        exact ⟨direction, by simp⟩)
      rw [step, if_neg complete, ← grown]
      simpa [pendingBytes] using next

theorem flushes_step_keep {pending : Option PendingSerialFrame} {frame : SerialCaptureFrame}
    (inside : ∀ old ∈ pending, framing.boundary old frame = false) :
    (flushes framing).step pending frame = (framing.takeByte frame).run pending frame.bytes := by
  cases pending with
  | none => rfl
  | some old =>
    have none : (some old).filter (fun pending => framing.boundary pending frame) = none := by
      simp [inside old rfl]
    unfold flushes
    dsimp only
    rw [none]
    rfl

theorem flushes_step_cut {old : PendingSerialFrame} {frame : SerialCaptureFrame}
    (cut : framing.boundary old frame = true) :
    (flushes framing).step (some old) frame =
      (((framing.takeByte frame).run none frame.bytes).1,
        (old, framing.complete) :: ((framing.takeByte frame).run none frame.bytes).2) := by
  have ended : (some old).filter (fun pending => framing.boundary pending frame) = some old := by
    simp [cut]
  unfold flushes
  dsimp only
  rw [ended]
  rfl

/-- A source frame never joins a pending frame of the other direction. -/
def Separates : Prop :=
  ∀ old frame, framing.boundary old frame = false → old.direction = frame.direction

variable {framing}

theorem takeByte_wire (direction : EventDirection) (frame : SerialCaptureFrame)
    {pending : Option PendingSerialFrame}
    (same : ∀ old ∈ pending, old.direction = frame.direction ∧ old.bytes ≠ []) :
    wire direction (((framing.takeByte frame).run pending frame.bytes).2.map SerialFlush.content ++
        pendingContent ((framing.takeByte frame).run pending frame.bytes).1) =
      wire direction (pendingContent pending) ++
        if frame.direction = direction then frame.bytes else [] := by
  obtain ⟨left, content, rest⟩ := framing.takeByte_run frame pending same frame.bytes
  have whole := @splitBytes_flatten framing.ends (pendingBytes pending) frame.bytes
  rw [wire_append, content, wire_pieces,
    wire_pendingContent fun old member => (left old member).1, rest,
    wire_pendingContent fun old member => (same old member).1]
  by_cases hit : frame.direction = direction
  · rw [if_pos hit, if_pos hit, if_pos hit, if_pos hit]
    exact whole
  · rw [if_neg hit, if_neg hit, if_neg hit, if_neg hit]

theorem flushes_wire (separates : framing.Separates) (direction : EventDirection)
    (frames : List SerialCaptureFrame) {pending : Option PendingSerialFrame}
    (filled : ∀ old ∈ pending, old.bytes ≠ []) :
    wire direction (((flushes framing).run pending frames).2.map SerialFlush.content ++
        pendingContent ((flushes framing).run pending frames).1) =
      wire direction (pendingContent pending) ++
        (frames.filter fun frame => frame.direction = direction).flatMap (·.bytes) := by
  induction frames generalizing pending with
  | nil => simp
  | cons frame frames ih =>
    have source : ((frame :: frames).filter fun frame => frame.direction = direction).flatMap
        (·.bytes) = (if frame.direction = direction then frame.bytes else []) ++
          (frames.filter fun frame => frame.direction = direction).flatMap (·.bytes) := by
      by_cases hit : frame.direction = direction <;> simp [hit]
    rw [run_cons, source, map_append, append_assoc, wire_append]
    by_cases inside : ∀ old ∈ pending, framing.boundary old frame = false
    · have same : ∀ old ∈ pending, old.direction = frame.direction ∧ old.bytes ≠ [] :=
        fun old member => ⟨separates old frame (inside old member), filled old member⟩
      obtain ⟨left, -⟩ := framing.takeByte_run frame pending same frame.bytes
      rw [framing.flushes_step_keep inside, ih fun old member => (left old member).2,
        ← append_assoc, ← wire_append, takeByte_wire direction frame same, append_assoc]
    · obtain ⟨old, rfl, cut⟩ : ∃ old, pending = some old ∧ framing.boundary old frame = true := by
        simpa using inside
      have fresh : ∀ old ∈ (none : Option PendingSerialFrame),
          old.direction = frame.direction ∧ old.bytes ≠ [] := fun _ none => absurd none (by simp)
      obtain ⟨left, -⟩ := framing.takeByte_run frame none fresh frame.bytes
      have taken := @takeByte_wire framing direction frame none fresh
      rw [framing.flushes_step_cut cut]
      dsimp only
      rw [ih fun old member => (left old member).2, map_cons, ← singleton_append,
        wire_append, append_assoc]
      rw [← append_assoc (wire direction (List.map _ _)), ← wire_append, taken]
      by_cases hit : old.direction = direction <;>
        simp [wire, pendingContent, SerialFlush.content, hit]

theorem consume_content (framing : Framing) (frames : List SerialCaptureFrame) :
    (framing.consume frames).map SerialFlush.content =
      ((flushes framing).run none frames).2.map SerialFlush.content ++
        pendingContent ((flushes framing).run none frames).1 := by
  unfold consume
  rw [map_append]
  cases ((flushes framing).run none frames).1 <;> rfl

theorem consume_wire (separates : framing.Separates) (direction : EventDirection)
    (frames : List SerialCaptureFrame) :
    wire direction ((framing.consume frames).map SerialFlush.content) =
      (frames.filter fun frame => frame.direction = direction).flatMap (·.bytes) := by
  have whole := @flushes_wire framing separates direction frames none
    fun _ none => absurd none (by simp)
  rw [consume_content, whole]
  rfl

def pendingChunk (pending : Option PendingSerialFrame) : List Chunk :=
  (pending.map fun pending => (pending.direction, pending.bytes)).toList

def chunks (frames : List SerialCaptureFrame) : List Chunk :=
  frames.map fun frame => (frame.direction, frame.bytes)

theorem runsContent_pending {ends : List UInt8 → Bool} {pending : Option PendingSerialFrame}
    {direction : EventDirection} (same : ∀ old ∈ pending, old.direction = direction)
    (rest : List Chunk) :
    runsContent ends (pendingChunk pending ++ rest) =
      runsContent ends ((direction, pendingBytes pending) :: rest) := by
  cases pending with
  | none => exact (runsContent_nil_cons direction rest).symm
  | some old =>
    rw [← same old rfl]
    rfl

/-- With the direction as the only boundary, the frames are those of the runs of one direction. -/
theorem flushes_content (boundary : framing.boundary = otherDirection)
    (incomplete : framing.complete = false) (frames : List SerialCaptureFrame)
    {pending : Option PendingSerialFrame} (ok : ∀ old ∈ pending, PendingOk framing.ends old) :
    ((flushes framing).run pending frames).2.map SerialFlush.content ++
        pendingContent ((flushes framing).run pending frames).1 =
      runsContent framing.ends (pendingChunk pending ++ chunks frames) := by
  induction frames generalizing pending with
  | nil =>
    cases pending with
    | none => rfl
    | some old =>
      obtain ⟨filled, unended⟩ := ok old rfl
      unfold Unended at unended
      simp [pendingContent, pendingChunk, chunks, runsContent, directionRuns, runContent, unended,
        filled]
  | cons frame frames ih =>
    have next : ∀ {kept : Option PendingSerialFrame},
        (∀ old ∈ kept, old.direction = frame.direction ∧ PendingOk framing.ends old) →
        ((framing.takeByte frame).run kept frame.bytes).2.map SerialFlush.content ++
            (((flushes framing).run ((framing.takeByte frame).run kept frame.bytes).1 frames).2.map
                SerialFlush.content ++
              pendingContent
                ((flushes framing).run ((framing.takeByte frame).run kept frame.bytes).1 frames).1) =
          runsContent framing.ends
            (pendingChunk kept ++ (frame.direction, frame.bytes) :: chunks frames) := by
      intro kept same
      have unended : Unended framing.ends (pendingBytes kept) := by
        cases kept with
        | none => exact Unended.nil
        | some old => exact (same old rfl).2.2
      obtain ⟨left, content, rest⟩ := framing.takeByte_run frame kept
        (fun old member => ⟨(same old member).1, (same old member).2.1⟩) frame.bytes
      have leftOk : ∀ old ∈ ((framing.takeByte frame).run kept frame.bytes).1,
          PendingOk framing.ends old := by
        intro old member
        refine ⟨(left old member).2, ?_⟩
        have whole := unended.rest frame.bytes
        rw [← rest] at whole
        rw [mem_def.mp member] at whole
        exact whole
      rw [ih leftOk, content, runsContent_pending (fun old member => (left old member).1), rest,
        runsContent_pending (fun old member => (same old member).1), ← unended.splitBytes]
      unfold runsContent
      rw [directionRuns_join]
      exact (runsContent_take frame.direction (pendingBytes kept ++ frame.bytes) (chunks frames)).symm
    rw [run_cons, map_append, append_assoc]
    by_cases inside : ∀ old ∈ pending, framing.boundary old frame = false
    · rw [framing.flushes_step_keep inside]
      refine next fun old member => ⟨?_, ok old member⟩
      have within := inside old member
      rw [boundary] at within
      simpa [otherDirection] using within
    · obtain ⟨old, rfl, cut⟩ : ∃ old, pending = some old ∧ framing.boundary old frame = true := by
        simpa using inside
      obtain ⟨filled, unended⟩ := ok old rfl
      have other : old.direction ≠ frame.direction := by
        rw [boundary] at cut
        simpa [otherDirection] using cut
      have fresh := @next none fun _ none => absurd none (by simp)
      have switch := @runsContent_switch framing.ends _ _ other old.bytes frame.bytes (chunks frames)
      have alone : runContent framing.ends (old.direction, old.bytes) =
          [(old.direction, old.bytes, false)] := by
        unfold Unended at unended
        simp [runContent, unended, filled]
      rw [framing.flushes_step_cut cut, incomplete]
      dsimp only
      rw [map_cons, cons_append, fresh]
      exact (switch.trans (by rw [alone]; rfl)).symm

theorem consume_runs (boundary : framing.boundary = otherDirection)
    (incomplete : framing.complete = false) (frames : List SerialCaptureFrame) :
    (framing.consume frames).map SerialFlush.content = runsContent framing.ends (chunks frames) := by
  have whole := @flushes_content framing boundary incomplete frames none
    fun _ none => absurd none (by simp)
  rw [consume_content, whole]
  rfl

theorem runsContent_ends {ends : List UInt8 → Bool} {cuts : List Chunk} {content : FlushContent}
    (member : content ∈ runsContent ends cuts) (complete : content.2.2 = true) :
    ends content.2.1 = true := by
  obtain ⟨run, -, inside⟩ := mem_flatMap.mp member
  rcases mem_append.mp inside with pieces | rest
  · obtain ⟨piece, cut, rfl⟩ := mem_map.mp pieces
    exact splitBytes_ends [] run.2 piece cut
  · split at rest
    · exact absurd rest not_mem_nil
    · rw [mem_singleton.mp rest] at complete
      exact absurd complete (by simp)

end Framing

section DelimiterText

theorem jsTrim_eq_nil {text : List Char} (blank : jsTrim text = []) :
    ∀ c ∈ text, isJsSpace c = true := by
  unfold jsTrim at blank
  have rest := rdropWhile_eq_nil_iff.mp blank
  intro c member
  by_contra visible
  have kept : text.dropWhile isJsSpace ≠ [] := by
    intro none
    exact visible (dropWhile_eq_nil_iff.mp none c member)
  have first := head_dropWhile_not isJsSpace kept
  have space := rest ((text.dropWhile isJsSpace).head kept) (head_mem kept)
  rw [first] at space
  exact absurd space (by simp)

theorem hexDigit?_upper : ∀ n < 16, hexDigit? (hexDigitUpper n) = some n := by decide

theorem hexDigitUpper_plain : ∀ n < 16, isDelimiterChar (hexDigitUpper n) = true ∧
    hexDigitUpper n ≠ 'x' ∧ hexDigitUpper n ≠ 'X' ∧ isJsSpace (hexDigitUpper n) = false := by decide

theorem removeHexMarks_plain {text : List Char} (plain : ∀ c ∈ text, c ≠ 'x' ∧ c ≠ 'X') :
    removeHexMarks text = text := by
  fun_induction removeHexMarks text with
  | case1 c text mark ih =>
    have other := plain c (by simp)
    simp [other] at mark
  | case2 c text _ ih => rw [ih fun d member => plain d (mem_cons_of_mem _ member)]
  | case3 c text _ ih => rw [ih fun d member => plain d (mem_cons_of_mem _ member)]
  | case4 => rfl

theorem formatSerialHexBytes_cons (byte : UInt8) (bytes : List UInt8) :
    formatSerialHexBytes (byte :: bytes) =
      hexDigitUpper (byte.toNat / 16) :: hexDigitUpper (byte.toNat % 16) ::
        if bytes = [] then [] else ' ' :: formatSerialHexBytes bytes := by
  cases bytes with
  | nil => rfl
  | cons next bytes => simp [formatSerialHexBytes, List.intercalate]

variable (bytes : List UInt8)

theorem formatSerialHexBytes_chars :
    ∀ c ∈ formatSerialHexBytes bytes, isDelimiterChar c = true ∧ c ≠ 'x' ∧ c ≠ 'X' := by
  induction bytes with
  | nil => exact fun _ none => absurd none not_mem_nil
  | cons byte bytes ih =>
    have high := hexDigitUpper_plain (byte.toNat / 16) (by have := byte.toNat_lt; omega)
    have low := hexDigitUpper_plain (byte.toNat % 16) (by omega)
    intro c member
    rw [formatSerialHexBytes_cons] at member
    rcases mem_cons.mp member with rfl | member
    · exact ⟨high.1, high.2.1, high.2.2.1⟩
    · rcases mem_cons.mp member with rfl | member
      · exact ⟨low.1, low.2.1, low.2.2.1⟩
      · split at member
        · exact absurd member not_mem_nil
        · rcases mem_cons.mp member with rfl | later
          · decide
          · exact ih c later

theorem formatSerialHexBytes_digits :
    (formatSerialHexBytes bytes).filterMap hexDigit? =
      bytes.flatMap fun byte => [byte.toNat / 16, byte.toNat % 16] := by
  induction bytes with
  | nil => rfl
  | cons byte bytes ih =>
    have high := hexDigit?_upper (byte.toNat / 16) (by have := byte.toNat_lt; omega)
    have low := hexDigit?_upper (byte.toNat % 16) (by omega)
    have space : hexDigit? ' ' = none := by decide
    rw [formatSerialHexBytes_cons, filterMap_cons_some high, filterMap_cons_some low,
      flatMap_cons]
    by_cases last : bytes = []
    · subst last
      rfl
    · rw [if_neg last, filterMap_cons_none space, ih]
      rfl

theorem bytePairs_digits :
    bytePairs (bytes.flatMap fun byte => [byte.toNat / 16, byte.toNat % 16]) = bytes := by
  induction bytes with
  | nil => rfl
  | cons byte bytes ih =>
    have whole : 16 * (byte.toNat / 16) + byte.toNat % 16 = byte.toNat := Nat.div_add_mod _ _
    simp only [flatMap_cons, cons_append, nil_append, bytePairs, ih, whole,
      UInt8.ofNat_toNat]

theorem bytePairs_length (digits : List Nat) : (bytePairs digits).length = digits.length / 2 := by
  fun_induction bytePairs digits with
  | case1 high low rest ih =>
    simp only [length_cons, ih]
    omega
  | case2 digits short =>
    match digits, short with
    | [], _ => rfl
    | [_], _ => simp
    | high :: low :: rest, short => exact absurd rfl (short high low rest)

theorem serialAnalyzerDelimiterBytes_format {value : List Char} {bytes : List UInt8}
    (read : serialAnalyzerDelimiterBytes value = some bytes) :
    serialAnalyzerDelimiterBytes (formatSerialHexBytes bytes) = some bytes := by
  have size : bytes ≠ [] ∧ bytes.length ≤ maxSerialDelimiterBytes := by
    unfold serialAnalyzerDelimiterBytes at read
    obtain ⟨-, rest⟩ := ite_none_left_eq_some.mp read
    obtain ⟨fits, same⟩ := ite_none_left_eq_some.mp rest
    obtain rfl := Option.some.inj same
    simp only [Bool.or_eq_true, decide_eq_true_eq, not_or, List.isEmpty_iff] at fits
    obtain ⟨⟨filled, even⟩, small⟩ := fits
    have length := bytePairs_length ((removeHexMarks value).filterMap hexDigit?)
    have pos := length_pos_iff.mpr filled
    refine ⟨?_, by omega⟩
    intro none
    rw [none, length_nil] at length
    omega
  obtain ⟨filled, small⟩ := size
  have chars := formatSerialHexBytes_chars bytes
  have visible : jsTrim (formatSerialHexBytes bytes) ≠ [] := by
    intro blank
    obtain ⟨byte, rest, rfl⟩ := exists_cons_of_ne_nil filled
    have space := jsTrim_eq_nil blank (hexDigitUpper (byte.toNat / 16))
      (by rw [formatSerialHexBytes_cons]; exact mem_cons_self)
    have plain := hexDigitUpper_plain (byte.toNat / 16) (by have := byte.toNat_lt; omega)
    rw [plain.2.2.2] at space
    exact absurd space (by simp)
  have all : (formatSerialHexBytes bytes).all isDelimiterChar = true :=
    all_eq_true.mpr fun c member => (chars c member).1
  have count : (bytes.flatMap fun byte => [byte.toNat / 16, byte.toNat % 16]).length =
      2 * bytes.length := by
    clear read filled small chars visible all
    induction bytes with
    | nil => rfl
    | cons byte bytes ih =>
      rw [flatMap_cons, length_append, ih, length_cons]
      simp only [length_cons, length_nil]
      omega
  have pos := length_pos_iff.mpr filled
  unfold serialAnalyzerDelimiterBytes
  rw [if_neg (by simp [visible, all])]
  dsimp only
  rw [removeHexMarks_plain fun c member => (chars c member).2, formatSerialHexBytes_digits,
    bytePairs_digits, if_neg]
  simp only [Bool.or_eq_true, decide_eq_true_eq, not_or, List.isEmpty_iff]
  refine ⟨⟨?_, by omega⟩, by omega⟩
  intro none
  rw [none, length_nil] at count
  omega

end DelimiterText

end PortMate
