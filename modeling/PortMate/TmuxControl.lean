import PortMate.LineStream
import PortMate.RustText

namespace PortMate

open List

abbrev maxTmuxControlLineBytes : Nat := 64 * 1024

structure TmuxControlParseResult where
  changed : Bool := false
  lastEvent : Option String := none
  deriving Repr, DecidableEq

/-- `within`: a line over the limit is never kept. -/
structure TmuxControlLineParser where
  partialLine : List UInt8 := []
  within : partialLine.length ≤ maxTmuxControlLineBytes := by decide

namespace TmuxControlLineParser

def appendPartial (parser : TmuxControlLineParser) (data : List UInt8) :
    Except String TmuxControlLineParser :=
  let nextLen := parser.partialLine.length + data.length
  if 2 ^ 64 ≤ nextLen then .error "Tmux control-mode 行长度溢出"
  else if fits : maxTmuxControlLineBytes < nextLen then
    .error s!"Tmux control-mode 单行超过 {maxTmuxControlLineBytes} 字节上限"
  else .ok ⟨parser.partialLine ++ data, by rw [length_append]; exact Nat.le_of_not_lt fits⟩

end TmuxControlLineParser

def tmuxControlEvents : List String :=
  ["client-active-pane", "client-session-changed", "layout-change", "pane-exited",
    "pane-mode-changed", "session-changed", "session-renamed", "session-window-changed",
    "sessions-changed", "subscription-changed", "unlinked-window-add", "unlinked-window-close",
    "unlinked-window-renamed", "window-add", "window-close", "window-pane-changed",
    "window-renamed"]

def tmuxControlEventKind (line : List UInt8) : Option String :=
  let line := if line.getLast? = some 13 then line.dropLast else line
  let name := line.takeWhile (· != 32)
  tmuxControlEvents.find? fun kind => name == utf8Bytes ("%" ++ kind)

namespace TmuxControlLineParser

/-- `slice` is what lies between the last line feed and the byte read now. -/
def pushFrom (parser : TmuxControlLineParser) (parsed : TmuxControlParseResult)
    (slice : List UInt8) :
    List UInt8 → TmuxControlLineParser × Except String TmuxControlParseResult
  | [] =>
    match parser.appendPartial slice with
    | .error error => (parser, .error error)
    | .ok parser => (parser, .ok parsed)
  | byte :: data =>
    if byte != 10 then pushFrom parser parsed (slice ++ [byte]) data
    else
      match parser.appendPartial slice with
      | .error error => (parser, .error error)
      | .ok parser =>
        match tmuxControlEventKind parser.partialLine with
        | some kind => pushFrom {} { changed := true, lastEvent := some kind } [] data
        | none => pushFrom {} parsed [] data

def push (parser : TmuxControlLineParser) (data : List UInt8) :
    TmuxControlLineParser × Except String TmuxControlParseResult :=
  parser.pushFrom {} [] data

/-- A push that fails leaves the parser at the line that failed; a later chunk goes on there. -/
def pushAll (parser : TmuxControlLineParser) :
    List (List UInt8) → TmuxControlLineParser × List (Except String TmuxControlParseResult)
  | [] => (parser, [])
  | data :: chunks =>
    let (parser, result) := parser.push data
    let (parser, results) := parser.pushAll chunks
    (parser, result :: results)

end TmuxControlLineParser

/-- What a push reports when these events are on the lines it ended. -/
def reportOf (events : List String) : TmuxControlParseResult :=
  { changed := !events.isEmpty, lastEvent := events.getLast? }

def eventsOf (lines : List (List UInt8)) : List String := lines.filterMap tmuxControlEventKind

/-- No line is over the limit, the last one included, which has no line feed yet. -/
def LinesFit (stream : List UInt8) : Prop :=
  ∀ line ∈ stream.splitOn 10, line.length ≤ maxTmuxControlLineBytes

theorem linesFit_iff (stream : List UInt8) : LinesFit stream ↔
    (∀ line ∈ endedParts 10 stream, line.length ≤ maxTmuxControlLineBytes) ∧
      (openPart 10 stream).length ≤ maxTmuxControlLineBytes := by
  rw [LinesFit, ← endedParts_concat_openPart]
  simp [or_imp, forall_and]

theorem linesFit_append (stream more : List UInt8) : LinesFit (stream ++ more) ↔
    LinesFit stream ∧ LinesFit (openPart 10 stream ++ more) := by
  obtain ⟨ended, opened⟩ := @splitOn_openPart UInt8 _ _ 10 stream more
  have short : LinesFit (openPart 10 stream ++ more) →
      (openPart 10 stream).length ≤ maxTmuxControlLineBytes := fun fits => by
    obtain ⟨line, mem, longer⟩ := exists_part_longer (not_mem_openPart stream) more
    exact Nat.le_trans longer (fits line mem)
  constructor
  · intro fits
    have parts := (linesFit_iff _).mp fits
    rw [ended, opened, forall_mem_append] at parts
    have rest : LinesFit (openPart 10 stream ++ more) :=
      (linesFit_iff _).mpr ⟨parts.1.2, parts.2⟩
    exact ⟨(linesFit_iff _).mpr ⟨parts.1.1, short rest⟩, rest⟩
  · rintro ⟨before, rest⟩
    have parts := (linesFit_iff _).mp rest
    rw [linesFit_iff, ended, opened, forall_mem_append]
    exact ⟨⟨((linesFit_iff _).mp before).1, parts.1⟩, parts.2⟩

theorem reportOf_append (before after : List String) : reportOf (before ++ after) =
    { changed := (reportOf before).changed || (reportOf after).changed
      lastEvent := (reportOf after).lastEvent.or (reportOf before).lastEvent } := by
  have none : (before ++ after).isEmpty = (before.isEmpty && after.isEmpty) := by
    cases before <;> rfl
  simp [reportOf, getLast?_append, none]

theorem reportOf_concat (seen : List String) (kind : String) :
    reportOf (seen ++ [kind]) = { changed := true, lastEvent := some kind } := by
  rw [reportOf_append]
  simp [reportOf]

theorem eventsOf_append (before after : List (List UInt8)) :
    eventsOf (before ++ after) = eventsOf before ++ eventsOf after := by
  rw [eventsOf, filterMap_append, ← eventsOf, ← eventsOf]

theorem eventsOf_isEmpty (lines : List (List UInt8)) : (eventsOf lines).isEmpty =
    !lines.any fun line => (tmuxControlEventKind line).isSome := by
  induction lines with
  | nil => rfl
  | cons line lines ih =>
    rw [any_cons]
    cases kind : tmuxControlEventKind line with
    | none => simpa [eventsOf, kind] using ih
    | some event => simp [eventsOf, kind]

namespace TmuxControlLineParser

theorem ext_line {p q : TmuxControlLineParser} (same : p.partialLine = q.partialLine) : p = q := by
  obtain ⟨line, within⟩ := p
  obtain ⟨line', within'⟩ := q
  obtain rfl : line = line' := same
  rfl

theorem appendPartial_fits {parser : TmuxControlLineParser} {data : List UInt8}
    (fits : (parser.partialLine ++ data).length ≤ maxTmuxControlLineBytes) :
    parser.appendPartial data = .ok ⟨parser.partialLine ++ data, fits⟩ := by
  rw [length_append] at fits
  have small : ¬2 ^ 64 ≤ parser.partialLine.length + data.length := by
    have limit : maxTmuxControlLineBytes < 2 ^ 64 := by decide
    omega
  rw [appendPartial, if_neg small, dif_neg (Nat.not_lt.mpr fits)]

theorem appendPartial_refused {parser : TmuxControlLineParser} {data : List UInt8}
    (long : maxTmuxControlLineBytes < (parser.partialLine ++ data).length) :
    ∃ error, parser.appendPartial data = .error error := by
  rw [length_append] at long
  rw [appendPartial]
  split
  · exact ⟨_, rfl⟩
  · exact ⟨_, rfl⟩

/-- `stream` is what the parser keeps, the slice and the rest; `seen` are the events before it. -/
theorem pushFrom_spec (parser : TmuxControlLineParser) (seen : List String) {slice : List UInt8}
    (plain : 10 ∉ parser.partialLine ++ slice) (data : List UInt8) :
    let stream := parser.partialLine ++ slice ++ data
    let pushed := parser.pushFrom (reportOf seen) slice data
    (LinesFit stream → pushed.1.partialLine = openPart 10 stream ∧
        pushed.2 = .ok (reportOf (seen ++ eventsOf (endedParts 10 stream)))) ∧
      (¬LinesFit stream → ∃ error, pushed.2 = .error error) := by
  induction data generalizing parser seen slice with
  | nil =>
    intro stream pushed
    have whole : stream = parser.partialLine ++ slice := append_nil _
    have ended : endedParts 10 stream = [] := by rw [whole, endedParts_plain plain]
    have kept : openPart 10 stream = parser.partialLine ++ slice := by rw [whole, openPart_plain plain]
    refine ⟨fun fits => ?_, fun long => ?_⟩
    · have short := ((linesFit_iff stream).mp fits).2
      rw [kept] at short
      simp only [pushed, pushFrom, appendPartial_fits short, ended, kept, true_and]
      rw [eventsOf, filterMap_nil, append_nil]
    · rw [linesFit_iff, ended, kept] at long
      have long : maxTmuxControlLineBytes < (parser.partialLine ++ slice).length := by
        simpa using long
      obtain ⟨error, refused⟩ := appendPartial_refused long
      refine ⟨error, ?_⟩
      simp only [pushed, pushFrom, refused]
  | cons byte data ih =>
    intro stream pushed
    by_cases feed : byte = 10
    · subst feed
      have ended : endedParts 10 stream =
          (parser.partialLine ++ slice) :: endedParts 10 data := endedParts_append_cons plain data
      have kept : openPart 10 stream = openPart 10 data := openPart_append_cons plain data
      by_cases short : (parser.partialLine ++ slice).length ≤ maxTmuxControlLineBytes
      · -- the line that ends here is short: the rest is pushed to an empty parser
        have rest : LinesFit stream ↔ LinesFit data := by
          rw [linesFit_iff, linesFit_iff, ended, kept, forall_mem_cons]
          simp only [short, true_and]
        have step : pushed =
            pushFrom {} (reportOf (seen ++ eventsOf [parser.partialLine ++ slice])) [] data := by
          simp only [pushed, pushFrom, appendPartial_fits short]
          cases kind : tmuxControlEventKind (parser.partialLine ++ slice) with
          | none => simp [kind, eventsOf]
          | some kind' => simp [kind, eventsOf, reportOf_concat]
        have events : eventsOf ((parser.partialLine ++ slice) :: endedParts 10 data) =
            eventsOf [parser.partialLine ++ slice] ++ eventsOf (endedParts 10 data) :=
          eventsOf_append [_] _
        obtain ⟨fine, failed⟩ := @ih {} (seen ++ eventsOf [parser.partialLine ++ slice])
          [] (by simp)
        rw [step, kept, rest, ended, events, ← append_assoc]
        exact ⟨fine, failed⟩
      · obtain ⟨error, refused⟩ := appendPartial_refused (Nat.lt_of_not_le short)
        refine ⟨fun fits => ?_, fun _ => ⟨error, ?_⟩⟩
        · have first := ((linesFit_iff stream).mp fits).1 (parser.partialLine ++ slice)
            (by rw [ended]; exact mem_cons_self)
          exact absurd first short
        · simp [pushed, pushFrom, refused]
    · have step : pushed = parser.pushFrom (reportOf seen) (slice ++ [byte]) data := by
        simp only [pushed, pushFrom, if_pos (bne_iff_ne.mpr feed)]
      have longer : stream = parser.partialLine ++ (slice ++ [byte]) ++ data := by
        simp [stream]
      have plain' : 10 ∉ parser.partialLine ++ (slice ++ [byte]) := by
        rw [← append_assoc, mem_append, mem_singleton]
        rintro (kept | rfl)
        · exact plain kept
        · exact feed rfl
      rw [step, longer]
      exact ih parser seen plain'

theorem push_spec {parser : TmuxControlLineParser} (plain : 10 ∉ parser.partialLine)
    (data : List UInt8) :
    let stream := parser.partialLine ++ data
    (LinesFit stream → (parser.push data).1.partialLine = openPart 10 stream ∧
        (parser.push data).2 = .ok (reportOf (eventsOf (endedParts 10 stream)))) ∧
      (¬LinesFit stream → ∃ error, (parser.push data).2 = .error error) := by
  have spec := @pushFrom_spec parser [] [] (by rw [append_nil]; exact plain) data
  simpa [push, reportOf] using spec

def together (reports : List TmuxControlParseResult) : TmuxControlParseResult :=
  { changed := reports.any (·.changed), lastEvent := (reports.filterMap (·.lastEvent)).getLast? }

theorem together_cons (report : TmuxControlParseResult) (reports : List TmuxControlParseResult) :
    together (report :: reports) =
      { changed := report.changed || (together reports).changed
        lastEvent := (together reports).lastEvent.or report.lastEvent } := by
  obtain ⟨changed, lastEvent⟩ := report
  cases lastEvent <;> simp [together, getLast?_cons, Option.or_some]

theorem pushAll_spec {parser : TmuxControlLineParser} (plain : 10 ∉ parser.partialLine)
    (chunks : List (List UInt8)) :
    let stream := parser.partialLine ++ chunks.flatten
    (LinesFit stream → (parser.pushAll chunks).1.partialLine = openPart 10 stream ∧
        ∃ reports, (parser.pushAll chunks).2 = reports.map .ok ∧
          together reports = reportOf (eventsOf (endedParts 10 stream))) ∧
      (¬LinesFit stream → ∃ error, .error error ∈ (parser.pushAll chunks).2) := by
  induction chunks generalizing parser with
  | nil =>
    intro stream
    have whole : stream = parser.partialLine := append_nil _
    have fits : LinesFit parser.partialLine := by
      rw [linesFit_iff, endedParts_plain plain, openPart_plain plain]
      exact ⟨nofun, parser.within⟩
    rw [whole]
    refine ⟨fun _ => ⟨(openPart_plain plain).symm, [], rfl, ?_⟩, fun long => absurd fits long⟩
    rw [endedParts_plain plain]
    rfl
  | cons data chunks ih =>
    intro stream
    have whole : stream = parser.partialLine ++ data ++ chunks.flatten := by simp [stream]
    obtain ⟨fine, failed⟩ := push_spec plain data
    rw [whole, linesFit_append]
    by_cases fits : LinesFit (parser.partialLine ++ data)
    · obtain ⟨kept, result⟩ := fine fits
      obtain ⟨fineRest, failedRest⟩ := @ih (parser.push data).1
        (by rw [kept]; exact not_mem_openPart _)
      rw [kept] at fineRest failedRest
      obtain ⟨ended, opened⟩ := @splitOn_openPart UInt8 _ _ 10
        (parser.partialLine ++ data) chunks.flatten
      refine ⟨fun lines => ?_, fun long => ?_⟩
      · obtain ⟨keptRest, reports, results, told⟩ := fineRest lines.2
        refine ⟨keptRest.trans opened.symm,
          reportOf (eventsOf (endedParts 10 (parser.partialLine ++ data))) :: reports, ?_, ?_⟩
        · rw [pushAll, map_cons, ← results, ← result]
        · rw [together_cons, told, ended, eventsOf_append, reportOf_append]
      · obtain ⟨error, mem⟩ := failedRest fun rest => long ⟨fits, rest⟩
        exact ⟨error, mem_cons_of_mem _ mem⟩
    · obtain ⟨error, result⟩ := failed fits
      refine ⟨fun lines => absurd lines.1 fits, fun _ => ⟨error, ?_⟩⟩
      rw [pushAll, ← result]
      exact mem_cons_self

end TmuxControlLineParser

open TmuxControlLineParser in
/-- Where a stream is cut into chunks makes no difference to what its control lines are. -/
theorem tmux_control_chunks (chunks : List (List UInt8)) :
    ((∃ error, .error error ∈ (pushAll {} chunks).2) ↔
      ∃ line ∈ chunks.flatten.splitOn 10, maxTmuxControlLineBytes < line.length) ∧
    (∀ reports : List TmuxControlParseResult, (pushAll {} chunks).2 = reports.map .ok →
      ∃ whole, push {} chunks.flatten = ((pushAll {} chunks).1, .ok whole) ∧
        whole.changed = reports.any (·.changed) ∧
        whole.lastEvent = (reports.filterMap (·.lastEvent)).getLast? ∧
        whole.changed =
          (endedParts 10 chunks.flatten).any (fun line => (tmuxControlEventKind line).isSome) ∧
        whole.lastEvent =
          ((endedParts 10 chunks.flatten).filterMap tmuxControlEventKind).getLast? ∧
        (pushAll {} chunks).1.partialLine = openPart 10 chunks.flatten) ∧
    (pushAll {} chunks).1.partialLine.length ≤ maxTmuxControlLineBytes := by
  obtain ⟨fine, failed⟩ := @pushAll_spec {} (by simp) chunks
  obtain ⟨fineWhole, -⟩ := @push_spec {} (by simp) chunks.flatten
  rw [nil_append] at fine failed fineWhole
  have long : ¬LinesFit chunks.flatten ↔
      ∃ line ∈ chunks.flatten.splitOn 10, maxTmuxControlLineBytes < line.length := by
    simp [LinesFit]
  have fits_of_ok : ∀ reports : List TmuxControlParseResult, (pushAll {} chunks).2 = reports.map .ok → LinesFit chunks.flatten := by
    intro reports results
    by_cases fits : LinesFit chunks.flatten
    · exact fits
    · obtain ⟨error, mem⟩ := failed fits
      rw [results] at mem
      obtain ⟨report, -, same⟩ := mem_map.mp mem
      cases same
  refine ⟨?_, fun reports results => ?_, (pushAll {} chunks).1.within⟩
  · rw [← long]
    refine ⟨fun ⟨error, mem⟩ fits => ?_, failed⟩
    obtain ⟨-, reports, results, -⟩ := fine fits
    rw [results] at mem
    obtain ⟨report, -, same⟩ := mem_map.mp mem
    cases same
  · have fits := fits_of_ok reports results
    obtain ⟨kept, reports', results', told⟩ := fine fits
    obtain ⟨keptWhole, resultWhole⟩ := fineWhole fits
    obtain rfl : reports' = reports :=
      map_injective_iff.mpr (fun _ _ same => Except.ok.inj same) (results'.symm.trans results)
    refine ⟨_, Prod.ext (ext_line (keptWhole.trans kept.symm)) resultWhole, ?_, ?_, ?_, rfl, kept⟩
    · rw [← told, together]
    · rw [← told, together]
    · rw [reportOf, eventsOf_isEmpty, Bool.not_not]

end PortMate
