import PortMate.RingLog
import PortMate.SessionModels
import PortMate.Transducer
import PortMate.Utf16

namespace PortMate

def maxSerialAnalyzedFrames : Nat := 4096
def maxSerialDelimiterBytes : Nat := 32
def minSerialFixedLength : Int := 1
def maxSerialFixedLength : Int := 4096
def minSerialGapMs : Int := 1
def maxSerialGapMs : Int := 60000

structure SerialCaptureFrame where
  id : String
  ts : String
  direction : EventDirection
  bytes : List UInt8
  truncated : Bool
  deriving DecidableEq

inductive SerialFrameParserMode
  | capture | delimiter | fixed | gap
  deriving DecidableEq

def SerialFrameParserMode.name : SerialFrameParserMode → String
  | capture => "capture"
  | delimiter => "delimiter"
  | fixed => "fixed"
  | gap => "gap"

/-- The numbers of a requested configuration are their integer parts, if they are finite; those of a
normalized one are integers. -/
structure SerialFrameParserConfig (ν : Type) where
  mode : SerialFrameParserMode
  delimiterHex : List Char
  includeDelimiter : Bool
  fixedLength : ν
  gapMs : ν

structure SerialAnalyzedFrame where
  id : String
  ts : String
  endTs : String
  direction : EventDirection
  bytes : List UInt8
  wireBytes : List UInt8
  complete : Bool
  truncated : Bool
  sourceFrameIds : List String
  bookmarkId : String
  deriving DecidableEq

structure SerialAnalysisResult where
  frames : List SerialAnalyzedFrame
  totalFrames : Nat
  droppedFrames : Nat
  capturedBytes : Nat
  deriving DecidableEq

/-- `[0-9a-fx\s,;:_-]`, in either case. -/
def isDelimiterChar (c : Char) : Bool :=
  (hexDigit? c).isSome || c = 'x' || c = 'X' || isJsSpace c || c = ',' || c = ';' || c = ':' ||
    c = '_' || c = '-'

/-- `replace(/0x/gi, "")`. -/
def removeHexMarks : List Char → List Char
  | '0' :: c :: text => if c = 'x' || c = 'X' then removeHexMarks text else '0' :: removeHexMarks (c :: text)
  | c :: text => c :: removeHexMarks text
  | [] => []

/-- `match(/../g)`, each pair read as a number. -/
def bytePairs : List Nat → List UInt8
  | high :: low :: rest => UInt8.ofNat (16 * high + low) :: bytePairs rest
  | _ => []

def serialAnalyzerDelimiterBytes (value : List Char) : Option (List UInt8) :=
  if (jsTrim value).isEmpty || !value.all isDelimiterChar then none
  else
    let compact := (removeHexMarks value).filterMap hexDigit?
    if compact.isEmpty || compact.length % 2 ≠ 0 || maxSerialDelimiterBytes * 2 < compact.length then
      none
    else some (bytePairs compact)

def hexDigitUpper (n : Nat) : Char :=
  if n < 10 then Char.ofNat ('0'.toNat + n) else Char.ofNat ('A'.toNat + (n - 10))

def formatSerialHexBytes (bytes : List UInt8) : List Char :=
  [' '].intercalate (bytes.map fun byte =>
    [hexDigitUpper (byte.toNat / 16), hexDigitUpper (byte.toNat % 16)])

def boundedInteger (value : Option Int) (minimum maximum fallback : Int) : Int :=
  min maximum (max minimum (value.getD fallback))

def normalizeSerialFrameParserConfig (source : SerialFrameParserConfig (Option Int)) :
    SerialFrameParserConfig Int where
  mode := source.mode
  delimiterHex := ((serialAnalyzerDelimiterBytes source.delimiterHex).map formatSerialHexBytes).getD
    "0D 0A".toList
  includeDelimiter := source.includeDelimiter
  fixedLength := boundedInteger source.fixedLength minSerialFixedLength maxSerialFixedLength 8
  gapMs := boundedInteger source.gapMs minSerialGapMs maxSerialGapMs 20

def cleanIdentifier (value : List Char) (maximum : Nat) : List Char :=
  if value.any fun c => c.toNat ≤ 0x1f || c.toNat = 0x7f then []
  else if !(jsTrim value).isEmpty && jsLength (jsTrim value) ≤ maximum then jsTrim value
  else []

def validSourceFrame (frame : SerialCaptureFrame) : Bool :=
  !(cleanIdentifier frame.id.toList 128).isEmpty &&
    (frame.direction = .inbound || frame.direction = .outbound)

structure PendingSerialFrame where
  ts : String
  endTs : String
  direction : EventDirection
  bytes : List UInt8
  truncated : Bool
  sourceFrameIds : List String
  deriving DecidableEq

def appendPendingSerialByte (pending : Option PendingSerialFrame) (frame : SerialCaptureFrame)
    (byte : UInt8) : PendingSerialFrame :=
  let next := pending.getD ⟨frame.ts, frame.ts, frame.direction, [], false, []⟩
  { next with
    bytes := next.bytes ++ [byte]
    endTs := frame.ts
    truncated := next.truncated || frame.truncated
    sourceFrameIds :=
      if next.sourceFrameIds.getLast? = some frame.id then next.sourceFrameIds
      else next.sourceFrameIds ++ [frame.id] }

def pendingSerialFrame (pending : PendingSerialFrame) (bytes : List UInt8) (complete : Bool)
    (mode : SerialFrameParserMode) (sequence : Nat) : SerialAnalyzedFrame where
  id :=
    let first := pending.sourceFrameIds.headD ""
    let last := pending.sourceFrameIds.getLastD ""
    s!"{mode.name}:{first}:{last}:{sequence}"
  ts := pending.ts
  endTs := pending.endTs
  direction := pending.direction
  bytes := bytes
  wireBytes := pending.bytes
  complete := complete
  truncated := pending.truncated
  sourceFrameIds := pending.sourceFrameIds
  bookmarkId := pending.sourceFrameIds.headD ""

def endsWithBytes (bytes suffix : List UInt8) : Bool :=
  suffix.length ≤ bytes.length && bytes.drop (bytes.length - suffix.length) = suffix

/-- How a parser cuts the bytes: before which source frame a pending frame ends, whether it is then
complete, and after which bytes it is complete. -/
structure Framing where
  boundary : PendingSerialFrame → SerialCaptureFrame → Bool
  complete : Bool
  ends : List UInt8 → Bool

/-- A pending frame that is flushed, and whether it is complete. -/
abbrev SerialFlush := PendingSerialFrame × Bool

namespace Framing

variable (framing : Framing)

def takeByte (frame : SerialCaptureFrame) : Transducer (Option PendingSerialFrame) UInt8 SerialFlush where
  step pending byte :=
    let next := appendPendingSerialByte pending frame byte
    if framing.ends next.bytes then (none, [(next, true)]) else (some next, [])

def flushes : Transducer (Option PendingSerialFrame) SerialCaptureFrame SerialFlush where
  step pending frame :=
    let ended := pending.filter fun pending => framing.boundary pending frame
    let (pending, taken) :=
      (framing.takeByte frame).run (if ended.isSome then none else pending) frame.bytes
    (pending, (ended.map fun pending => (pending, framing.complete)).toList ++ taken)

/-- What is flushed in the course of the frames, and the incomplete frame at their end. -/
def consume (frames : List SerialCaptureFrame) : List SerialFlush :=
  ((flushes framing).run none frames).2 ++
    (((flushes framing).run none frames).1.map fun pending => (pending, false)).toList

end Framing

def otherDirection (pending : PendingSerialFrame) (frame : SerialCaptureFrame) : Bool :=
  pending.direction ≠ frame.direction

def delimiterFraming (delimiter : List UInt8) : Framing where
  boundary := otherDirection
  complete := false
  ends bytes := endsWithBytes bytes delimiter

def fixedFraming (fixedLength : Int) : Framing where
  boundary := otherDirection
  complete := false
  ends bytes := (bytes.length : Int) = fixedLength

/-- `dateParse` is `none` where `Date.parse` has no number. -/
def gapFraming (dateParse : String → Option Int) (gapMs : Int) : Framing where
  boundary pending frame := otherDirection pending frame ||
    match dateParse frame.ts, dateParse pending.endTs with
    | some currentTime, some previousTime => gapMs < currentTime - previousTime
    | _, _ => true
  complete := true
  ends _ := false

abbrev SerialAnalyzedFrameCollector := RingLog SerialAnalyzedFrame

namespace SerialAnalyzedFrameCollector

/-- A frame is made with the number of those before it. -/
def push (collector : SerialAnalyzedFrameCollector) (frame : Nat → SerialAnalyzedFrame) :
    SerialAnalyzedFrameCollector :=
  RingLog.push maxSerialAnalyzedFrames collector (frame collector.total)

def result (collector : SerialAnalyzedFrameCollector) (capturedBytes : Nat) :
    SerialAnalysisResult where
  frames := RingLog.visible maxSerialAnalyzedFrames collector
  totalFrames := collector.total
  droppedFrames := collector.total - (RingLog.visible maxSerialAnalyzedFrames collector).length
  capturedBytes := capturedBytes

end SerialAnalyzedFrameCollector

def captureFrame (frame : SerialCaptureFrame) : SerialAnalyzedFrame where
  id := "capture:" ++ frame.id
  ts := frame.ts
  endTs := frame.ts
  direction := frame.direction
  bytes := frame.bytes
  wireBytes := frame.bytes
  complete := true
  truncated := frame.truncated
  sourceFrameIds := [frame.id]
  bookmarkId := frame.id

def analyzeCaptureFrames (frames : List SerialCaptureFrame) : List (Nat → SerialAnalyzedFrame) :=
  frames.map fun frame _ => captureFrame frame

def analyzeDelimitedFrames (frames : List SerialCaptureFrame) (config : SerialFrameParserConfig Int) :
    List (Nat → SerialAnalyzedFrame) :=
  let delimiter := (serialAnalyzerDelimiterBytes config.delimiterHex).getD [13, 10]
  ((delimiterFraming delimiter).consume frames).map fun (pending, complete) =>
    let bytes := if complete && !config.includeDelimiter then
        pending.bytes.take (pending.bytes.length - delimiter.length)
      else pending.bytes
    pendingSerialFrame pending bytes complete .delimiter

def analyzeFixedFrames (frames : List SerialCaptureFrame) (fixedLength : Int) :
    List (Nat → SerialAnalyzedFrame) :=
  ((fixedFraming fixedLength).consume frames).map fun (pending, complete) =>
    pendingSerialFrame pending pending.bytes complete .fixed

def analyzeGapFrames (dateParse : String → Option Int) (frames : List SerialCaptureFrame)
    (gapMs : Int) : List (Nat → SerialAnalyzedFrame) :=
  ((gapFraming dateParse gapMs).consume frames).map fun (pending, complete) =>
    pendingSerialFrame pending pending.bytes complete .gap

/-- The frames that an analysis hands to its collector. -/
def pushedFrames (dateParse : String → Option Int) (frames : List SerialCaptureFrame)
    (config : SerialFrameParserConfig Int) : List (Nat → SerialAnalyzedFrame) :=
  match config.mode with
  | .capture => analyzeCaptureFrames frames
  | .delimiter => analyzeDelimitedFrames frames config
  | .fixed => analyzeFixedFrames frames config.fixedLength
  | .gap => analyzeGapFrames dateParse frames config.gapMs

def analyzeSerialCaptureFrames (dateParse : String → Option Int)
    (sourceFrames : List SerialCaptureFrame)
    (requestedConfig : SerialFrameParserConfig (Option Int)) : SerialAnalysisResult :=
  let config := normalizeSerialFrameParserConfig requestedConfig
  let frames := sourceFrames.filter validSourceFrame
  let collector := (pushedFrames dateParse frames config).foldl SerialAnalyzedFrameCollector.push
    (RingLog.empty maxSerialAnalyzedFrames)
  collector.result (frames.map (·.bytes.length)).sum

end PortMate
