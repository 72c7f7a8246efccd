import PortMate.LineStream
import PortMate.RustText
import PortMate.SessionModels

namespace PortMate

open Nat Option

/-- `to_rfc3339_opts` with microseconds: one text for each time, without brackets and line ends. -/
structure Rfc3339Micros where
  text : DateTime → List Char
  closed : ∀ ts, ']' ∉ text ts
  oneLine : ∀ ts, '\n' ∉ text ts
  distinct : Function.Injective text

/-- `char::escape_default`. -/
def escapeDefault (c : Char) : List Char :=
  if c = '\t' then ['\\', 't']
  else if c = '\r' then ['\\', 'r']
  else if c = '\n' then ['\\', 'n']
  else if c = '\'' || c = '"' || c = '\\' then ['\\', c]
  else if ' ' ≤ c && c ≤ '~' then [c]
  else ['\\', 'u', '\x7b'] ++ toDigits 16 c.toNat ++ ['\x7d']

def textLogCharacter (character : Char) : List Char :=
  if character = '\\' then ['\\', '\\']
  else if character = ']' then ['\\', ']']
  else if isRustControl character then escapeDefault character
  else [character]

def textLogField (value : String) : List Char := value.toList.flatMap textLogCharacter

def EventDirection.logName : EventDirection → String
  | .inbound => "inbound"
  | .outbound => "outbound"
  | .system => "system"

def EventStream.logName : EventStream → String
  | .stdout => "stdout"
  | .stderr => "stderr"
  | .control => "control"
  | .audit => "audit"

def logCommandId (event : SessionEvent) : String :=
  (event.annotations.lookup "commandId").getD "-"

namespace Rfc3339Micros

variable (times : Rfc3339Micros)

def textLogPrefix (event : SessionEvent) : List Char :=
  ["[".toList, times.text event.ts, "] [".toList, event.direction.logName.toList, "/".toList,
    event.stream.logName.toList, "] [session=".toList, textLogField event.sessionId,
    "] [pane=".toList, textLogField event.paneId, "] [command=".toList,
    textLogField (logCommandId event), "] ".toList].flatten

def formatTextLogEvent (event : SessionEvent) (text : List Char) : List Char :=
  if text.isEmpty then []
  else
    (splitInclusive '\n' text).flatMap fun line =>
      times.textLogPrefix event ++ line ++ if line.getLast? = some '\n' then [] else ['\n']

end Rfc3339Micros

structure TextLogLine where
  stamp : List Char
  direction : EventDirection
  stream : EventStream
  sessionId : List Char
  paneId : List Char
  commandId : List Char
  content : List Char
  deriving DecidableEq

def readExpected (expected : String) (text : List Char) : Option (List Char) :=
  if expected.toList.isPrefixOf text then some (text.drop expected.toList.length) else none

def readHex (digits : List Char) : Option Nat :=
  digits.foldl (fun number digit => do
    let number ← number
    let value ← hexDigit? digit
    some (number * 16 + value)) (some 0)

/-- The character behind a backslash, and what follows it. -/
def readEscape : List Char → Option (Char × List Char)
  | 't' :: rest => some ('\t', rest)
  | 'r' :: rest => some ('\r', rest)
  | 'n' :: rest => some ('\n', rest)
  | 'u' :: rest =>
    (readHex ((rest.drop 1).takeWhile (· != '\x7d'))).map fun number =>
      (Char.ofNat number, (rest.dropWhile (· != '\x7d')).drop 1)
  | c :: rest => some (c, rest)
  | [] => none

/-- A field up to its closing bracket, and the rest from the bracket on. -/
def readFieldFrom : Nat → List Char → Option (List Char × List Char)
  | 0, _ => none
  | _, [] => none
  | _, ']' :: rest => some ([], ']' :: rest)
  | fuel + 1, '\\' :: rest => do
    let (c, rest) ← readEscape rest
    let (field, rest) ← readFieldFrom fuel rest
    some (c :: field, rest)
  | fuel + 1, c :: rest => do
    let (field, rest) ← readFieldFrom fuel rest
    some (c :: field, rest)

def readField (text : List Char) : Option (List Char × List Char) :=
  readFieldFrom (text.length + 1) text

def directionsAndStreams : List (EventDirection × EventStream) :=
  [.inbound, .outbound, .system].flatMap fun direction =>
    [EventStream.stdout, .stderr, .control, .audit].map fun stream => (direction, stream)

def readDirection (name : List Char) : Option (EventDirection × EventStream) :=
  directionsAndStreams.find? fun (direction, stream) =>
    direction.logName.toList ++ "/".toList ++ stream.logName.toList == name

/-- The fields of the line's record, and the text behind them. -/
def readTextLogLine (line : List Char) : Option TextLogLine := do
  let rest ← readExpected "[" line
  let stamp := rest.takeWhile (· != ']')
  let rest ← readExpected "] [" (rest.dropWhile (· != ']'))
  let (direction, stream) ← readDirection (rest.takeWhile (· != ']'))
  let rest ← readExpected "] [session=" (rest.dropWhile (· != ']'))
  let (sessionId, rest) ← readField rest
  let rest ← readExpected "] [pane=" rest
  let (paneId, rest) ← readField rest
  let rest ← readExpected "] [command=" rest
  let (commandId, rest) ← readField rest
  let content ← readExpected "] " rest
  some { stamp, direction, stream, sessionId, paneId, commandId, content }

/-- The lines of an event's text, without their line feeds. -/
def contentLines (text : List Char) : List (List Char) :=
  endedParts '\n' text ++ remainder '\n' text

theorem readExpected_append (expected : String) (rest : List Char) :
    readExpected expected (expected.toList ++ rest) = some rest := by
  rw [readExpected, if_pos (List.isPrefixOf_iff_prefix.mpr (List.prefix_append _ _)),
    List.drop_left]

theorem upTo_closing {closing : Char} {front rest : List Char} (plain : closing ∉ front)
    (closed : rest.head? = some closing) :
    (front ++ rest).takeWhile (· != closing) = front ∧
      (front ++ rest).dropWhile (· != closing) = rest := by
  have others : ∀ c ∈ front, (c != closing) = true := fun c mem =>
    bne_iff_ne.mpr fun same => plain (same ▸ mem)
  obtain ⟨tail, rfl⟩ := List.head?_eq_some_iff.mp closed
  rw [List.takeWhile_append_of_pos others, List.dropWhile_append_of_pos others]
  simp

set_option maxRecDepth 4000 in
theorem hex_digits_read : ∀ n < 160,
    readHex (toDigits 16 n) = some n ∧ '\x7d' ∉ toDigits 16 n ∧
      '\n' ∉ toDigits 16 n := by
  decide

theorem control_lt {c : Char} (control : isRustControl c = true) : c.toNat < 160 := by
  have bounds : c.val ≤ 0x1F ∨ 0x7F ≤ c.val ∧ c.val ≤ 0x9F := by
    simpa [isRustControl] using control
  have le_iff : ∀ m : UInt32, c.val ≤ m ↔ c.toNat ≤ m.toNat := fun m => UInt32.le_iff_toNat_le
  rw [le_iff, le_iff] at bounds
  change c.toNat ≤ 31 ∨ _ ∧ c.toNat ≤ 159 at bounds
  omega

theorem escapeDefault_unicode {c : Char} (control : isRustControl c = true) (slash : c ≠ '\\') :
    ∃ tail,
      (if c = '\'' || c = '"' || c = '\\' then ['\\', c]
        else if ' ' ≤ c && c ≤ '~' then [c]
        else ['\\', 'u', '\x7b'] ++ toDigits 16 c.toNat ++ ['\x7d']) = '\\' :: tail ∧
      '\n' ∉ tail ∧ ∀ rest, readEscape (tail ++ rest) = some (c, rest) := by
  have quotes : ¬(c = '\'' || c = '"' || c = '\\') = true := by
    rw [Bool.or_eq_true, Bool.or_eq_true, decide_eq_true_eq, decide_eq_true_eq, decide_eq_true_eq]
    rintro ((rfl | rfl) | rfl)
    · exact absurd control (by decide)
    · exact absurd control (by decide)
    · exact slash rfl
  have printable : ¬(' ' ≤ c && c ≤ '~') = true := by
    intro between
    have bounds : ' ' ≤ c ∧ c ≤ '~' := by simpa using between
    have shown : c.val ≤ 0x1F ∨ 0x7F ≤ c.val ∧ c.val ≤ 0x9F := by simpa [isRustControl] using control
    simp only [Char.le_def, UInt32.le_iff_toNat_le] at bounds shown
    change 32 ≤ _ ∧ _ ≤ 126 at bounds
    change _ ≤ 31 ∨ 127 ≤ _ ∧ _ ≤ 159 at shown
    omega
  obtain ⟨number, closing, plain⟩ := hex_digits_read c.toNat (control_lt control)
  rw [if_neg quotes, if_neg printable]
  refine ⟨['u', '\x7b'] ++ toDigits 16 c.toNat ++ ['\x7d'], rfl, by simp [plain], fun rest => ?_⟩
  have shape : ['u', '\x7b'] ++ toDigits 16 c.toNat ++ ['\x7d'] ++ rest =
      'u' :: ('\x7b' :: toDigits 16 c.toNat ++ '\x7d' :: rest) := by simp
  have opened : '\x7d' ∉ '\x7b' :: toDigits 16 c.toNat := by
    rw [List.mem_cons, not_or]
    exact ⟨by decide, closing⟩
  have digits := (@upTo_closing '\x7d' _ ('\x7d' :: rest) closing rfl).1
  rw [shape, readEscape, (upTo_closing opened rfl).2]
  simp only [List.cons_append, List.drop_succ_cons, List.drop_zero, digits, number,
    map_some, Char.ofNat_toNat]

theorem textLogCharacter_read (c : Char) :
    (textLogCharacter c = [c] ∧ c ≠ '\\' ∧ c ≠ ']' ∧ c ≠ '\n') ∨
      ∃ tail, textLogCharacter c = '\\' :: tail ∧ '\n' ∉ tail ∧
        ∀ rest, readEscape (tail ++ rest) = some (c, rest) := by
  unfold textLogCharacter
  split
  next slash => exact .inr ⟨['\\'], by rw [], by decide, fun rest => by rw [slash]; rfl⟩
  next slash =>
    split
    next bracket => exact .inr ⟨[']'], rfl, by decide, fun rest => by rw [bracket]; rfl⟩
    next bracket =>
      split
      next control =>
        right
        unfold escapeDefault
        split
        next tab => exact ⟨['t'], rfl, by decide, fun rest => by rw [tab]; rfl⟩
        next tab =>
          split
          next cr => exact ⟨['r'], rfl, by decide, fun rest => by rw [cr]; rfl⟩
          next cr =>
            split
            next lf => exact ⟨['n'], rfl, by decide, fun rest => by rw [lf]; rfl⟩
            next lf => exact escapeDefault_unicode control slash
      next control =>
        refine .inl ⟨rfl, slash, bracket, fun lf => control ?_⟩
        rw [lf]
        rfl

theorem readFieldFrom_field (value : List Char) {fuel : Nat} (enough : value.length < fuel)
    {rest : List Char} (closed : rest.head? = some ']') :
    readFieldFrom fuel (value.flatMap textLogCharacter ++ rest) = some (value, rest) := by
  obtain ⟨tail, rfl⟩ := List.head?_eq_some_iff.mp closed
  induction value generalizing fuel with
  | nil =>
    obtain ⟨fuel, rfl⟩ := exists_eq_succ_of_ne_zero (Nat.ne_of_gt enough)
    rfl
  | cons c value ih =>
    obtain ⟨fuel, rfl⟩ := exists_eq_succ_of_ne_zero (Nat.ne_of_gt (zero_lt_of_lt enough))
    have later := @ih fuel (by rw [List.length_cons] at enough; omega)
    rw [List.flatMap_cons, List.append_assoc]
    rcases textLogCharacter_read c with ⟨itself, slash, bracket, -⟩ | ⟨tail, escaped, -, read⟩
    · rw [itself, List.singleton_append, readFieldFrom, later]
      · rfl
      · exact bracket
      · exact slash
    · rw [escaped, List.cons_append, readFieldFrom, read, bind_eq_bind, bind_some]
      dsimp only
      rw [later]
      rfl

theorem length_le_textLogField (value : List Char) :
    value.length ≤ (value.flatMap textLogCharacter).length := by
  induction value with
  | nil => exact Nat.le_refl 0
  | cons c value ih =>
    rw [List.flatMap_cons, List.length_append, List.length_cons]
    have some : 1 ≤ (textLogCharacter c).length := by
      rcases textLogCharacter_read c with ⟨itself, -⟩ | ⟨tail, escaped, -⟩
      · rw [itself]
        exact Nat.le_refl 1
      · rw [escaped, List.length_cons]
        omega
    omega

theorem readField_field (value : String) {rest : List Char} (closed : rest.head? = some ']') :
    readField (textLogField value ++ rest) = some (value.toList, rest) := by
  have longer := length_le_textLogField value.toList
  rw [readField]
  refine readFieldFrom_field value.toList ?_ closed
  rw [textLogField, List.length_append]
  omega

theorem textLogField_oneLine (value : String) : '\n' ∉ textLogField value := by
  intro mem
  obtain ⟨c, -, inside⟩ := List.mem_flatMap.mp mem
  rcases textLogCharacter_read c with ⟨itself, -, -, feed⟩ | ⟨tail, escaped, plain, -⟩
  · rw [itself, List.mem_singleton] at inside
    exact feed inside.symm
  · rw [escaped, List.mem_cons] at inside
    rcases inside with slash | inside
    · exact absurd slash (by decide)
    · exact plain inside

variable (direction : EventDirection)

theorem readDirection_names (stream : EventStream) :
    readDirection (direction.logName.toList ++ "/".toList ++ stream.logName.toList) =
      some (direction, stream) := by
  cases direction <;> cases stream <;> rfl

theorem direction_closed (stream : EventStream) :
    ']' ∉ direction.logName.toList ++ "/".toList ++ stream.logName.toList ∧
      '\n' ∉ direction.logName.toList ∧ '\n' ∉ stream.logName.toList := by
  cases direction <;> cases stream <;> decide

namespace Rfc3339Micros

variable (times : Rfc3339Micros)

/-- What a reader is to find on a line of the event. -/
def lineOf (event : SessionEvent) (content : List Char) : TextLogLine where
  stamp := times.text event.ts
  direction := event.direction
  stream := event.stream
  sessionId := event.sessionId.toList
  paneId := event.paneId.toList
  commandId := (logCommandId event).toList
  content := content

variable (event : SessionEvent)

theorem textLogPrefix_oneLine : '\n' ∉ times.textLogPrefix event := by
  obtain ⟨-, direction, stream⟩ := direction_closed event.direction event.stream
  have parts : ∀ part ∈ ["[".toList, times.text event.ts, "] [".toList,
      event.direction.logName.toList, "/".toList, event.stream.logName.toList,
      "] [session=".toList, textLogField event.sessionId, "] [pane=".toList,
      textLogField event.paneId, "] [command=".toList, textLogField (logCommandId event),
      "] ".toList], '\n' ∉ part := by
    simp only [List.forall_mem_cons]
    exact ⟨by decide, times.oneLine _, by decide, direction, by decide, stream, by decide,
      textLogField_oneLine _, by decide, textLogField_oneLine _, by decide, textLogField_oneLine _,
      by decide, nofun⟩
  intro mem
  obtain ⟨part, written, inside⟩ := List.mem_flatten.mp mem
  exact parts part written inside

theorem readTextLogLine_written (content : List Char) :
    readTextLogLine (times.textLogPrefix event ++ content) = some (times.lineOf event content) := by
  have closed := (direction_closed event.direction event.stream).1
  have shape : times.textLogPrefix event ++ content =
      "[".toList ++ (times.text event.ts ++ ("] [".toList ++
        (event.direction.logName.toList ++ "/".toList ++ event.stream.logName.toList ++
          ("] [session=".toList ++ (textLogField event.sessionId ++ ("] [pane=".toList ++
            (textLogField event.paneId ++ ("] [command=".toList ++
              (textLogField (logCommandId event) ++ ("] ".toList ++ content)))))))))) := by
    simp only [textLogPrefix, List.flatten_cons, List.flatten_nil, List.append_nil,
      List.append_assoc]
  have stamp := fun rest : List Char =>
    @upTo_closing _ _ ("] [".toList ++ rest) (times.closed event.ts) rfl
  have names := fun rest : List Char =>
    @upTo_closing _ _ ("] [session=".toList ++ rest) closed rfl
  have session := fun rest : List Char =>
    @readField_field event.sessionId ("] [pane=".toList ++ rest) rfl
  have pane := fun rest : List Char =>
    @readField_field event.paneId ("] [command=".toList ++ rest) rfl
  have command := fun rest : List Char =>
    @readField_field (logCommandId event) ("] ".toList ++ rest) rfl
  simp only [shape, readTextLogLine, readExpected_append, bind_eq_bind, bind_some,
    stamp, names, readDirection_names, session, pane, command, lineOf]

theorem contentLines_oneLine {text line : List Char} (mem : line ∈ contentLines text) :
    '\n' ∉ line := by
  rcases List.mem_append.mp mem with ended | left
  · exact not_mem_endedParts ended
  · unfold remainder at left
    split at left
    · cases left
    · rw [List.mem_singleton.mp left]
      exact not_mem_openPart text

theorem formatTextLogEvent_eq (text : List Char) :
    times.formatTextLogEvent event text =
      ((contentLines text).map (times.textLogPrefix event ++ ·)).flatMap (· ++ ['\n']) := by
  rw [List.flatMap_map]
  by_cases empty : text.isEmpty = true
  · obtain rfl := List.isEmpty_iff.mp empty
    rfl
  · rw [formatTextLogEvent, if_neg empty, splitInclusive_eq, contentLines, List.flatMap_append,
      List.flatMap_append, List.flatMap_map]
    congr 1
    · refine List.flatMap_congr fun line _ => ?_
      rw [if_pos List.getLast?_concat, List.append_nil, List.append_assoc]
    · refine List.flatMap_congr fun line mem => ?_
      have plain : '\n' ∉ line := contentLines_oneLine (List.mem_append_right _ mem)
      rw [if_neg fun last => plain (List.mem_of_getLast? last)]

theorem linesWritten (text more : List Char) :
    endedParts '\n' (times.formatTextLogEvent event text ++ more) =
        (contentLines text).map (times.textLogPrefix event ++ ·) ++ endedParts '\n' more ∧
      openPart '\n' (times.formatTextLogEvent event text ++ more) = openPart '\n' more := by
  rw [formatTextLogEvent_eq]
  refine endedParts_joined (fun line mem => ?_) more
  obtain ⟨content, written, rfl⟩ := List.mem_map.mp mem
  rw [List.mem_append, not_or]
  exact ⟨times.textLogPrefix_oneLine event, contentLines_oneLine written⟩

theorem contentLines_joined (text : List Char) :
    (contentLines text).flatMap (· ++ ['\n']) =
      if text = [] ∨ text.getLast? = some '\n' then text else text ++ ['\n'] := by
  have joined := @joined_endedParts Char _ _ '\n' text
  have plain := @not_mem_openPart Char _ _ '\n' text
  rw [contentLines, List.flatMap_append, remainder]
  cases left : openPart '\n' text with
  | nil =>
    rw [left, List.append_nil] at joined
    have ended : text = [] ∨ text.getLast? = some '\n' := by
      rcases List.eq_nil_or_concat' (endedParts '\n' text) with none | ⟨parts, last, some⟩
      · rw [none] at joined
        exact .inl joined.symm
      · rw [some, List.flatMap_append] at joined
        rw [← joined]
        simp
    rw [if_pos ended]
    simpa using joined
  | cons c rest =>
    rw [left] at joined plain
    have unended : ¬(text = [] ∨ text.getLast? = some '\n') := by
      rw [← joined, List.getLast?_append_of_ne_nil _ (List.cons_ne_nil c rest)]
      rintro (none | last)
      · simp at none
      · exact plain (List.mem_of_getLast? last)
    rw [if_neg unended]
    calc (endedParts '\n' text).flatMap (· ++ ['\n']) ++ [c :: rest].flatMap (· ++ ['\n'])
        = (endedParts '\n' text).flatMap (· ++ ['\n']) ++ c :: rest ++ ['\n'] := by simp
      _ = text ++ ['\n'] := by rw [joined]

theorem logLines (records : List (SessionEvent × List Char)) :
    endedParts '\n' (records.flatMap fun record => times.formatTextLogEvent record.1 record.2) =
      records.flatMap fun record =>
        (contentLines record.2).map (times.textLogPrefix record.1 ++ ·) := by
  induction records with
  | nil => rfl
  | cons record records ih =>
    rw [List.flatMap_cons, List.flatMap_cons, (times.linesWritten _ _ _).1, ih]

/-- Every line of an event says whose it is, its lines are the event's text, and those of a log
are those of its events. -/
theorem text_log_attributable (event : SessionEvent) (text : List Char) :
    openPart '\n' (times.formatTextLogEvent event text) = [] ∧
    (∀ line ∈ endedParts '\n' (times.formatTextLogEvent event text),
      times.textLogPrefix event <+: line ∧ readTextLogLine line =
        some (times.lineOf event (line.drop (times.textLogPrefix event).length))) ∧
    (∀ other line, line ∈ endedParts '\n' (times.formatTextLogEvent event text) →
      times.textLogPrefix other <+: line → event.ts = other.ts ∧
        event.direction = other.direction ∧ event.stream = other.stream ∧
        event.sessionId = other.sessionId ∧ event.paneId = other.paneId ∧
        logCommandId event = logCommandId other) ∧
    ((endedParts '\n' (times.formatTextLogEvent event text)).flatMap fun line =>
        line.drop (times.textLogPrefix event).length ++ ['\n']) =
      (if text = [] ∨ text.getLast? = some '\n' then text else text ++ ['\n']) ∧
    ∀ records : List (SessionEvent × List Char),
      endedParts '\n' (records.flatMap fun record =>
          times.formatTextLogEvent record.1 record.2) =
        records.flatMap fun record =>
          endedParts '\n' (times.formatTextLogEvent record.1 record.2) := by
  have written := fun event text => times.linesWritten event text []
  simp only [List.append_nil] at written
  have lines : ∀ event text, endedParts '\n' (times.formatTextLogEvent event text) =
      (contentLines text).map (times.textLogPrefix event ++ ·) := fun event text => by
    rw [(written event text).1]
    exact List.append_nil _
  simp only [lines]
  refine ⟨(written event text).2, fun line mem => ?_, fun other line mem starts => ?_, ?_,
    times.logLines⟩
  · obtain ⟨content, -, rfl⟩ := List.mem_map.mp mem
    rw [List.drop_left]
    exact ⟨List.prefix_append _ _, times.readTextLogLine_written event content⟩
  · obtain ⟨content, -, rfl⟩ := List.mem_map.mp mem
    obtain ⟨content', same⟩ := starts
    have read := times.readTextLogLine_written event content
    rw [← same, times.readTextLogLine_written other] at read
    have fields := Option.some.inj read
    simp only [lineOf, TextLogLine.mk.injEq, String.toList_inj] at fields
    obtain ⟨stamp, direction, stream, session, pane, command, -⟩ := fields
    exact ⟨(times.distinct stamp).symm, direction.symm, stream.symm, session.symm, pane.symm,
      command.symm⟩
  · rw [List.flatMap_map]
    simp only [List.drop_left]
    exact contentLines_joined text

end Rfc3339Micros

def decimalTime (ts : DateTime) : List Char :=
  (if ts < 0 then ['-'] else []) ++ toDigits 10 ts.natAbs

theorem decimalTime_chars {ts : DateTime} {c : Char} (mem : c ∈ decimalTime ts) :
    c = '-' ∨ c.isDigit = true := by
  rcases List.mem_append.mp mem with sign | digit
  · split at sign
    · exact .inl (List.mem_singleton.mp sign)
    · cases sign
  · exact .inr (toDigits_isDigit digit)

theorem natAbs_of_toDigits {ts other : DateTime}
    (same : toDigits 10 ts.natAbs = toDigits 10 other.natAbs) :
    ts.natAbs = other.natAbs := by
  have back := fun n : Nat => @Nat.ofDigitChars_toDigits 10 n (by decide) (by decide)
  rw [← back ts.natAbs, same, back]

theorem eq_of_natAbs {a b : Int} (same : a.natAbs = b.natAbs) (signs : a < 0 ↔ b < 0) :
    a = b := by
  omega

theorem decimalTime_injective : Function.Injective decimalTime := by
  intro ts other same
  have digits : ∀ n : Nat, '-' ∉ toDigits 10 n := fun n mem =>
    absurd (toDigits_isDigit mem) (by decide)
  unfold decimalTime at same
  split at same
  next negative =>
    split at same
    next negative' =>
      exact eq_of_natAbs (natAbs_of_toDigits (List.append_cancel_left same))
        (iff_of_true negative negative')
    next =>
      exact absurd (show '-' ∈ [] ++ toDigits 10 other.natAbs by rw [← same]; simp)
        (by simpa using digits _)
  next positive =>
    split at same
    next =>
      exact absurd (show '-' ∈ [] ++ toDigits 10 ts.natAbs by rw [same]; simp)
        (by simpa using digits _)
    next positive' =>
      exact eq_of_natAbs (natAbs_of_toDigits (List.append_cancel_left same))
        (iff_of_false positive positive')

def sampleTime : DateTime := 1784118896123456

/-- The sample event's time as it is written; other times as plain numbers. -/
def sampleTimes : Rfc3339Micros where
  text ts := if ts = sampleTime then "2026-07-15T12:34:56.123456Z".toList else decimalTime ts
  closed ts mem := by
    split at mem
    · revert mem
      decide
    · rcases decimalTime_chars mem with dash | digit
      · exact absurd dash (by decide)
      · exact absurd digit (by decide)
  oneLine ts mem := by
    split at mem
    · revert mem
      decide
    · rcases decimalTime_chars mem with dash | digit
      · exact absurd dash (by decide)
      · exact absurd digit (by decide)
  distinct ts other same := by
    have letter : 'T' ∈ "2026-07-15T12:34:56.123456Z".toList := by decide
    have plain : ∀ time, 'T' ∉ decimalTime time := fun time mem =>
      (decimalTime_chars mem).elim (by decide) (by decide)
    dsimp only at same
    split at same
    next first =>
      split at same
      next second => rw [first, second]
      next => exact absurd (same ▸ letter) (plain other)
    next =>
      split at same
      · exact absurd (same ▸ letter) (plain ts)
      · exact decimalTime_injective same

def sampleLogEvent : SessionEvent where
  id := "event-1"
  sessionId := "session:1"
  paneId := "session:1]\n[pane"
  ts := sampleTime
  direction := .inbound
  stream := .stderr
  bytesRef := none
  text := none
  annotations := [("commandId", "command-1")]

/-- A text that brings line feeds and a prefix of its own. -/
theorem sampleLogEvent_lines :
    ∀ line ∈ endedParts '\n' (sampleTimes.formatTextLogEvent sampleLogEvent
        "first\r\n\n[2026-07-15T12:34:56.123456Z] [system/audit] [session=other] ".toList),
      sampleTimes.textLogPrefix sampleLogEvent <+: line ∧ readTextLogLine line =
        some (sampleTimes.lineOf sampleLogEvent
          (line.drop (sampleTimes.textLogPrefix sampleLogEvent).length)) :=
  (sampleTimes.text_log_attributable sampleLogEvent _).2.1

end PortMate
