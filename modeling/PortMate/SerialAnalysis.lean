import PortMate.SerialFraming

namespace PortMate

open List Framing

/-- All frames that an analysis produces, also those that its ring does not keep. -/
def producedFrames (dateParse : String → Option Int) (captured : List SerialCaptureFrame)
    (requested : SerialFrameParserConfig (Option Int)) : List SerialAnalyzedFrame :=
  (pushedFrames dateParse (captured.filter validSourceFrame)
    (normalizeSerialFrameParserConfig requested)).mapIdx fun index frame => frame index

theorem collector_holds (pushed : List (Nat → SerialAnalyzedFrame)) :
    RingLog.Holds maxSerialAnalyzedFrames (pushed.mapIdx fun index frame => frame index)
      (pushed.foldl SerialAnalyzedFrameCollector.push (RingLog.empty maxSerialAnalyzedFrames)) := by
  induction pushed using List.reverseRecOn with
  | nil => exact RingLog.holds_empty maxSerialAnalyzedFrames
  | append_singleton pushed frame ih =>
    have count := ih.total
    rw [length_mapIdx] at count
    rw [foldl_append, mapIdx_concat, ← count]
    exact ih.push (by decide) _

variable (dateParse : String → Option Int)

variable (captured : List SerialCaptureFrame)

variable (requested : SerialFrameParserConfig (Option Int))

theorem result_frames :
    (analyzeSerialCaptureFrames dateParse captured requested).frames =
        (producedFrames dateParse captured requested).drop
          ((producedFrames dateParse captured requested).length - maxSerialAnalyzedFrames) ∧
      (analyzeSerialCaptureFrames dateParse captured requested).totalFrames =
        (producedFrames dateParse captured requested).length :=
  ⟨(collector_holds _).visible, (collector_holds _).total⟩

namespace SerialAnalyzedFrame

/-- A frame without what it tells of the chunks that it came in. -/
def content (frame : SerialAnalyzedFrame) : EventDirection × List UInt8 × List UInt8 × Bool :=
  (frame.direction, frame.bytes, frame.wireBytes, frame.complete)

end SerialAnalyzedFrame

/-- The delimiter that a requested configuration stands for. -/
def requestedDelimiter (requested : SerialFrameParserConfig (Option Int)) : List UInt8 :=
  (serialAnalyzerDelimiterBytes requested.delimiterHex).getD [13, 10]

theorem normalized_delimiter :
    (serialAnalyzerDelimiterBytes (normalizeSerialFrameParserConfig requested).delimiterHex).getD
      [13, 10] = requestedDelimiter requested := by
  unfold requestedDelimiter normalizeSerialFrameParserConfig
  dsimp only
  cases read : serialAnalyzerDelimiterBytes requested.delimiterHex with
  | none => decide
  | some bytes =>
    rw [Option.map_some, Option.getD_some, serialAnalyzerDelimiterBytes_format read]

/-- How the bytes are cut, in a mode that cuts them. -/
def requestedFraming (dateParse : String → Option Int)
    (requested : SerialFrameParserConfig (Option Int)) : Framing :=
  match requested.mode with
  | .delimiter => delimiterFraming (requestedDelimiter requested)
  | .fixed => fixedFraming (normalizeSerialFrameParserConfig requested).fixedLength
  | _ => gapFraming dateParse (normalizeSerialFrameParserConfig requested).gapMs

def frameBytes (requested : SerialFrameParserConfig (Option Int)) (content : FlushContent) :
    List UInt8 :=
  if requested.mode = .delimiter ∧ content.2.2 = true ∧ requested.includeDelimiter = false then
    content.2.1.take (content.2.1.length - (requestedDelimiter requested).length)
  else content.2.1

theorem gapFraming_separates (gapMs : Int) : (gapFraming dateParse gapMs).Separates := by
  intro old frame inside
  have same := (Bool.or_eq_false_iff.mp inside).1
  simpa [otherDirection] using same

theorem otherDirection_separates {framing : Framing} (boundary : framing.boundary = otherDirection) :
    framing.Separates := by
  intro old frame inside
  rw [boundary] at inside
  simpa [otherDirection] using inside

theorem requestedFraming_separates : (requestedFraming dateParse requested).Separates := by
  unfold requestedFraming
  split
  · exact otherDirection_separates rfl
  · exact otherDirection_separates rfl
  · exact gapFraming_separates _ _

theorem mapIdx_content {contents : List FlushContent} {pushed : List (Nat → SerialAnalyzedFrame)}
    {bytes : FlushContent → List UInt8}
    (same : ∀ index, pushed.map (fun frame => (frame index).content) =
      contents.map fun content => (content.1, bytes content, content.2.1, content.2.2)) :
    (pushed.mapIdx fun index frame => frame index).map SerialAnalyzedFrame.content =
      contents.map fun content => (content.1, bytes content, content.2.1, content.2.2) := by
  apply ext_getElem?
  intro index
  have here := congrArg (·[index]?) (same index)
  simpa [getElem?_mapIdx, Function.comp_def] using here

theorem producedFrames_content {requested : SerialFrameParserConfig (Option Int)}
    (cuts : requested.mode ≠ .capture) :
    (producedFrames dateParse captured requested).map SerialAnalyzedFrame.content =
      (((requestedFraming dateParse requested).consume (captured.filter validSourceFrame)).map
        SerialFlush.content).map
        fun content => (content.1, frameBytes requested content, content.2.1, content.2.2) := by
  refine mapIdx_content fun index => ?_
  have mode : (normalizeSerialFrameParserConfig requested).mode = requested.mode := rfl
  unfold pushedFrames requestedFraming
  rw [mode]
  cases kind : requested.mode with
  | capture => exact absurd kind cuts
  | delimiter =>
    dsimp only
    unfold analyzeDelimitedFrames
    dsimp only
    rw [normalized_delimiter, map_map, map_map]
    refine map_congr_left fun flush _ => ?_
    have decoded : (normalizeSerialFrameParserConfig requested).includeDelimiter =
        requested.includeDelimiter := rfl
    obtain ⟨pending, complete⟩ := flush
    cases complete <;> cases included : requested.includeDelimiter <;>
      simp [frameBytes, kind, included, decoded, SerialFlush.content, SerialAnalyzedFrame.content,
        pendingSerialFrame]
  | fixed =>
    dsimp only
    unfold analyzeFixedFrames
    rw [map_map, map_map]
    refine map_congr_left fun flush _ => ?_
    simp [frameBytes, kind, SerialFlush.content, SerialAnalyzedFrame.content, pendingSerialFrame]
  | gap =>
    dsimp only
    unfold analyzeGapFrames
    rw [map_map, map_map]
    refine map_congr_left fun flush _ => ?_
    simp [frameBytes, kind, SerialFlush.content, SerialAnalyzedFrame.content, pendingSerialFrame]

/-- The bytes that the frames of a direction took off the wire. -/
def wireBytesOf (direction : EventDirection) (frames : List SerialAnalyzedFrame) : List UInt8 :=
  (frames.filter fun frame => frame.direction = direction).flatMap (·.wireBytes)

/-- The bytes of a direction that were captured. -/
def capturedBytesOf (direction : EventDirection) (frames : List SerialCaptureFrame) : List UInt8 :=
  (frames.filter fun frame => frame.direction = direction).flatMap (·.bytes)

variable (direction : EventDirection)

theorem wireBytesOf_eq (frames : List SerialAnalyzedFrame) :
    wireBytesOf direction frames =
      wire direction (frames.map fun frame => (frame.direction, frame.wireBytes, frame.complete)) := by
  induction frames with
  | nil => rfl
  | cons frame frames ih =>
    unfold wireBytesOf wire at ih ⊢
    by_cases hit : frame.direction = direction <;> simp_all

theorem wireBytesOf_capture (frames : List SerialCaptureFrame) :
    wireBytesOf direction (frames.map captureFrame) = capturedBytesOf direction frames := by
  unfold wireBytesOf capturedBytesOf
  induction frames with
  | nil => rfl
  | cons frame frames ih =>
    by_cases hit : frame.direction = direction <;> simp_all [captureFrame]

theorem producedFrames_wire :
    wireBytesOf direction (producedFrames dateParse captured requested) =
      capturedBytesOf direction (captured.filter validSourceFrame) := by
  by_cases mode : requested.mode = .capture
  · have frames : producedFrames dateParse captured requested =
        (captured.filter validSourceFrame).map captureFrame := by
      unfold producedFrames pushedFrames
      have kind : (normalizeSerialFrameParserConfig requested).mode = .capture := mode
      rw [kind]
      dsimp only
      unfold analyzeCaptureFrames
      apply ext_getElem?
      intro index
      simp [getElem?_mapIdx, Function.comp_def]
    rw [frames, wireBytesOf_capture]
  · have contents := congrArg
      (List.map fun content : EventDirection × List UInt8 × List UInt8 × Bool =>
        (content.1, content.2.2)) (producedFrames_content dateParse captured mode)
    rw [map_map, map_map] at contents
    rw [wireBytesOf_eq]
    refine (congrArg (wire direction) contents).trans ?_
    have identity : ((fun content : EventDirection × List UInt8 × List UInt8 × Bool =>
        (content.1, content.2.2)) ∘ fun content : FlushContent =>
          (content.1, frameBytes requested content, content.2.1, content.2.2)) = id := rfl
    rw [identity, map_id]
    exact consume_wire (requestedFraming_separates dateParse requested) direction _

/-- What a complete frame is, in the modes that say so. -/
def CompleteFrame (requested : SerialFrameParserConfig (Option Int)) (bytes : List UInt8) : Prop :=
  match requested.mode with
  | .delimiter => requestedDelimiter requested <:+ bytes
  | .fixed => (bytes.length : Int) = boundedInteger requested.fixedLength minSerialFixedLength
      maxSerialFixedLength 8
  | _ => True

theorem endsWithBytes_suffix {bytes ending : List UInt8} (ends : endsWithBytes bytes ending = true) :
    ending <:+ bytes := by
  unfold endsWithBytes at ends
  simp only [Bool.and_eq_true, decide_eq_true_eq] at ends
  rw [← ends.2]
  exact drop_suffix _ _

theorem producedFrames_runs {requested : SerialFrameParserConfig (Option Int)}
    (cuts : requested.mode = .delimiter ∨ requested.mode = .fixed) :
    (producedFrames dateParse captured requested).map SerialAnalyzedFrame.content =
      (runsContent (requestedFraming dateParse requested).ends
        (chunks (captured.filter validSourceFrame))).map
        fun content => (content.1, frameBytes requested content, content.2.1, content.2.2) := by
  have boundary : (requestedFraming dateParse requested).boundary = otherDirection ∧
      (requestedFraming dateParse requested).complete = false := by
    unfold requestedFraming
    rcases cuts with mode | mode <;> rw [mode] <;> exact ⟨rfl, rfl⟩
  have other : requested.mode ≠ .capture := by
    rcases cuts with mode | mode <;> rw [mode] <;> decide
  rw [producedFrames_content dateParse captured other,
    consume_runs boundary.1 boundary.2]

theorem producedFrames_complete {frame : SerialAnalyzedFrame}
    (member : frame ∈ producedFrames dateParse captured requested)
    (complete : frame.complete = true) : CompleteFrame requested frame.wireBytes := by
  unfold CompleteFrame
  by_cases cuts : requested.mode = .delimiter ∨ requested.mode = .fixed
  · have content := mem_map_of_mem (f := SerialAnalyzedFrame.content) member
    rw [producedFrames_runs dateParse captured cuts] at content
    obtain ⟨cut, inside, same⟩ := mem_map.mp content
    obtain ⟨-, -, bytes, flag⟩ : cut.1 = frame.direction ∧
        frameBytes requested cut = frame.bytes ∧ cut.2.1 = frame.wireBytes ∧
        cut.2.2 = frame.complete := by
      obtain ⟨direction, rest⟩ := Prod.mk.inj same
      obtain ⟨bytes, rest⟩ := Prod.mk.inj rest
      exact ⟨direction, bytes, Prod.mk.inj rest⟩
    have ends := runsContent_ends inside (flag.trans complete)
    rw [bytes] at ends
    unfold requestedFraming at ends
    rcases cuts with mode | mode
    · rw [mode] at ends ⊢
      exact endsWithBytes_suffix ends
    · rw [mode] at ends ⊢
      exact of_decide_eq_true ends
  · cases mode : requested.mode with
    | capture => trivial
    | gap => trivial
    | delimiter => exact absurd (.inl mode) cuts
    | fixed => exact absurd (.inr mode) cuts

/-- The analyzer keeps the last of the frames that it produces; those hold all captured bytes of each
direction, a complete one ends as its mode says, and in the modes that only look at the bytes they
depend on the runs of one direction, not on how a run was captured in chunks. -/
theorem serial_framing_keeps_bytes (dateParse : String → Option Int)
    (captured : List SerialCaptureFrame) (requested : SerialFrameParserConfig (Option Int)) :
    (analyzeSerialCaptureFrames dateParse captured requested).frames =
        (producedFrames dateParse captured requested).drop
          ((producedFrames dateParse captured requested).length - maxSerialAnalyzedFrames) ∧
      (analyzeSerialCaptureFrames dateParse captured requested).totalFrames =
        (producedFrames dateParse captured requested).length ∧
      (∀ direction, wireBytesOf direction (producedFrames dateParse captured requested) =
        capturedBytesOf direction (captured.filter validSourceFrame)) ∧
      (∀ frame ∈ producedFrames dateParse captured requested, frame.complete = true →
        CompleteFrame requested frame.wireBytes) ∧
      (requested.mode = .delimiter ∨ requested.mode = .fixed → ∀ others,
        directionRuns (chunks (others.filter validSourceFrame)) =
          directionRuns (chunks (captured.filter validSourceFrame)) →
        (analyzeSerialCaptureFrames dateParse others requested).frames.map
            SerialAnalyzedFrame.content =
          (analyzeSerialCaptureFrames dateParse captured requested).frames.map
            SerialAnalyzedFrame.content) := by
  obtain ⟨kept, count⟩ := result_frames dateParse captured requested
  refine ⟨kept, count, producedFrames_wire dateParse captured requested,
    fun frame => producedFrames_complete dateParse captured requested, ?_⟩
  intro cuts others runs
  have contents : (producedFrames dateParse others requested).map SerialAnalyzedFrame.content =
      (producedFrames dateParse captured requested).map SerialAnalyzedFrame.content := by
    rw [producedFrames_runs dateParse others cuts, producedFrames_runs dateParse captured cuts]
    unfold runsContent
    rw [runs]
  have lengths := congrArg List.length contents
  rw [length_map, length_map] at lengths
  rw [kept, (result_frames dateParse others requested).1, map_drop, map_drop, contents,
    lengths]

def fixedPairs : SerialFrameParserConfig (Option Int) := ⟨.fixed, "0D 0A".toList, true, some 2, some 20⟩

def chunkOf (id : String) (direction : EventDirection) (bytes : List UInt8) : SerialCaptureFrame :=
  ⟨id, "", direction, bytes, false⟩

theorem pair_in_two_chunks :
    (analyzeSerialCaptureFrames (fun _ => none)
        [chunkOf "a" .inbound [1], chunkOf "b" .inbound [2, 3]] fixedPairs).frames.map
          SerialAnalyzedFrame.content =
      (analyzeSerialCaptureFrames (fun _ => none) [chunkOf "c" .inbound [1, 2, 3]]
        fixedPairs).frames.map SerialAnalyzedFrame.content :=
  (serial_framing_keeps_bytes (fun _ => none) [chunkOf "c" .inbound [1, 2, 3]] fixedPairs).2.2.2.2
    (.inr rfl) [chunkOf "a" .inbound [1], chunkOf "b" .inbound [2, 3]] (by decide)

/-- A chunk of the other direction between the two bytes of a frame ends the frame after the first. -/
theorem other_direction_ends_frame :
    (∀ direction, capturedBytesOf direction
        [chunkOf "a" .inbound [1], chunkOf "b" .outbound [9], chunkOf "c" .inbound [2]] =
      capturedBytesOf direction [chunkOf "a" .inbound [1, 2], chunkOf "b" .outbound [9]]) ∧
      ((analyzeSerialCaptureFrames (fun _ => none)
          [chunkOf "a" .inbound [1], chunkOf "b" .outbound [9], chunkOf "c" .inbound [2]]
          fixedPairs).frames.filter fun frame => frame.direction = .inbound).map
            SerialAnalyzedFrame.content ≠
        ((analyzeSerialCaptureFrames (fun _ => none)
          [chunkOf "a" .inbound [1, 2], chunkOf "b" .outbound [9]]
          fixedPairs).frames.filter fun frame => frame.direction = .inbound).map
            SerialAnalyzedFrame.content := by
  refine ⟨fun direction => ?_, by decide⟩
  cases direction <;> rfl

end PortMate
