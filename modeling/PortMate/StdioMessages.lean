import PortMate.LineStream
import PortMate.RustPrimitives

namespace PortMate

open List Nat

/-- The buffered stream: what each refill of the buffer brings. -/
abbrev BufferedStream := List (List UInt8)

inductive StdioMessage
  | eof
  | message (line : List UInt8)
  | tooLarge
  deriving DecidableEq

def newline : UInt8 := 10

def carriageReturn : UInt8 := 13

/-- `read_until` a newline on a reader that is limited to the next bytes. -/
def readUntilNewline (limit : Nat) : BufferedStream → List UInt8 × BufferedStream
  | [] => ([], [])
  | buffer :: refills =>
    let available := buffer.take limit
    match available.idxOf? newline with
    | some found => (available.take (found + 1), buffer.drop (found + 1) :: refills)
    | none =>
      match buffer.drop limit with
      | [] =>
        let (more, rest) := readUntilNewline (limit - buffer.length) refills
        (available ++ more, rest)
      | beyond => (available, beyond :: refills)

def discardStdioLine : BufferedStream → BufferedStream
  | [] => []
  | available :: refills =>
    match available.idxOf? newline with
    | some found => available.drop (found + 1) :: refills
    | none => discardStdioLine refills

def withoutCarriageReturn (line : List UInt8) : List UInt8 :=
  if line.getLast? = some carriageReturn then line.dropLast else line

def boundedMessage (maxBytes : Nat) (line : List UInt8) : StdioMessage :=
  if line.length > maxBytes then .tooLarge else .message line

def readStdioMessage (maxBytes : Nat) (reader : BufferedStream) : StdioMessage × BufferedStream :=
  let bufferedLimit := saturatingAdd maxBytes 2
  let (line, reader) := readUntilNewline bufferedLimit reader
  if line.length = 0 then (.eof, reader)
  else
    let terminated := line.getLast? == some newline
    let reader :=
      if !terminated && line.length == bufferedLimit then discardStdioLine reader else reader
    let line := if terminated then withoutCarriageReturn line.dropLast else line
    (boundedMessage maxBytes line, reader)

/-- The messages up to the end of the stream, in a number of reads. -/
def stdioMessages (maxBytes : Nat) : Nat → BufferedStream → Option (List StdioMessage)
  | 0, _ => none
  | reads + 1, reader =>
    match readStdioMessage maxBytes reader with
    | (.eof, _) => some []
    | (message, reader) => (stdioMessages maxBytes reads reader).map (message :: ·)

section Reads

def firstLineOf (stream : List UInt8) : List UInt8 :=
  match stream.idxOf? newline with
  | some found => stream.take (found + 1)
  | none => stream

theorem firstLineOf_plain {stream : List UInt8} (plain : newline ∉ stream) :
    firstLineOf stream = stream := by
  rw [firstLineOf, idxOf?_eq_none_iff.mpr plain]

theorem idxOf?_newline {part : List UInt8} (plain : newline ∉ part) (rest : List UInt8) :
    (part ++ newline :: rest).idxOf? newline = some part.length := by
  induction part with
  | nil => simp [idxOf?_cons]
  | cons byte part ih =>
    obtain ⟨differs, plain⟩ := not_mem_cons plain
    rw [cons_append, idxOf?_cons, if_neg differs, ih plain]
    rfl

theorem firstLineOf_ended {part : List UInt8} (plain : newline ∉ part) (rest : List UInt8) :
    firstLineOf (part ++ newline :: rest) = part ++ [newline] := by
  rw [firstLineOf, idxOf?_newline plain]
  exact take_length_add_append 1

theorem firstLineOf_append {front : List UInt8} (plain : newline ∉ front) (rest : List UInt8) :
    firstLineOf (front ++ rest) = front ++ firstLineOf rest := by
  by_cases ends : newline ∈ rest
  · obtain ⟨part, after, rfl, plainPart⟩ := eq_append_cons_of_mem ends
    have both : newline ∉ front ++ part := by simp [plain, plainPart]
    rw [← append_assoc, firstLineOf_ended both, firstLineOf_ended plainPart, append_assoc]
  · rw [firstLineOf_plain ends, firstLineOf_plain (by simp [plain, ends])]

theorem idxOf?_split {stream : List UInt8} {found : Nat} (ends : stream.idxOf? newline = some found) :
    ∃ part rest, stream = part ++ newline :: rest ∧ newline ∉ part ∧ found = part.length := by
  have mem : newline ∈ stream := by
    by_contra plain
    rw [idxOf?_eq_none_iff.mpr plain] at ends
    cases ends
  obtain ⟨part, rest, rfl, plain⟩ := eq_append_cons_of_mem mem
  rw [idxOf?_newline plain] at ends
  exact ⟨part, rest, rfl, plain, (Option.some.inj ends).symm⟩

theorem readUntilNewline_eq (limit : Nat) (reader : BufferedStream) :
    (readUntilNewline limit reader).1 = firstLineOf (reader.flatten.take limit) ∧
      (readUntilNewline limit reader).1 ++ (readUntilNewline limit reader).2.flatten =
        reader.flatten := by
  induction reader generalizing limit with
  | nil => simp [readUntilNewline, firstLineOf]
  | cons buffer refills ih =>
    rw [readUntilNewline, flatten_cons, take_append]
    dsimp only
    split
    next found inside =>
      obtain ⟨part, after, available, plain, rfl⟩ := idxOf?_split inside
      have short : part.length + 1 ≤ limit := by
        have counted := congrArg List.length available
        simp only [length_take, length_append, length_cons] at counted
        omega
      have taken : (buffer.take limit).take (part.length + 1) = part ++ [newline] := by
        rw [available]
        exact take_length_add_append 1
      constructor
      · rw [taken, available, append_assoc, cons_append, firstLineOf_ended plain]
      · rw [take_take, Nat.min_eq_left short, flatten_cons, ← append_assoc,
          take_append_drop]
    next none =>
      have plain := idxOf?_eq_none_iff.mp none
      split
      next used =>
        have whole : buffer.take limit = buffer :=
          take_of_length_le (drop_eq_nil_iff.mp used)
        obtain ⟨line, rest⟩ := ih (limit - buffer.length)
        rw [whole] at plain ⊢
        constructor
        · rw [firstLineOf_append plain, ← line]
        · rw [append_assoc, rest]
      next beyond =>
        have long : limit < buffer.length := by
          by_contra short
          exact beyond (drop_eq_nil_iff.mpr (Nat.le_of_not_lt short))
        constructor
        · rw [show limit - buffer.length = 0 by omega, take_zero, append_nil,
            firstLineOf_plain plain]
        · rw [flatten_cons, ← append_assoc, take_append_drop]

theorem discardStdioLine_ended {reader : BufferedStream} {part rest : List UInt8}
    (plain : newline ∉ part) (stream : reader.flatten = part ++ newline :: rest) :
    (discardStdioLine reader).flatten = rest := by
  induction reader generalizing part with
  | nil => simp at stream
  | cons available refills ih =>
    rw [flatten_cons] at stream
    rw [discardStdioLine]
    split
    next found inside =>
      obtain ⟨part', after, rfl, plain', rfl⟩ := idxOf?_split inside
      rw [append_assoc, cons_append] at stream
      have first := congrArg firstLineOf stream
      rw [firstLineOf_ended plain', firstLineOf_ended plain] at first
      obtain rfl := append_cancel_right first
      have same := append_cancel_left stream
      rw [List.cons.injEq] at same
      have behind : (part' ++ newline :: after).drop (part'.length + 1) = after :=
        drop_length_add_append 1
      rw [behind]
      exact same.2
    next none =>
      have plain' := idxOf?_eq_none_iff.mp none
      obtain ⟨more, rfl, behind⟩ | ⟨more, rfl, behind⟩ := append_eq_append_iff.mp stream
      · exact ih (fun mem => plain (mem_append_right _ mem)) behind
      · cases more with
        | nil => exact @ih [] not_mem_nil behind.symm
        | cons byte more =>
          obtain rfl : newline = byte := (List.cons.inj behind).1
          simp at plain'

theorem discardStdioLine_open {reader : BufferedStream} (plain : newline ∉ reader.flatten) :
    (discardStdioLine reader).flatten = [] := by
  induction reader with
  | nil => rfl
  | cons available refills ih =>
    simp only [flatten_cons, mem_append, not_or] at plain
    rw [discardStdioLine, idxOf?_eq_none_iff.mpr plain.1]
    exact ih plain.2

end Reads

section Messages

/-- The limit fits the machine's word, or the stream does not reach it. -/
def LimitFits (maxBytes : Nat) (stream : List UInt8) : Prop :=
  maxBytes + 2 < 2 ^ 64 ∨ stream.length < 2 ^ 64 - 1

theorem LimitFits.reached {maxBytes : Nat} {stream : List UInt8} (fits : LimitFits maxBytes stream)
    (long : saturatingAdd maxBytes 2 ≤ stream.length) : saturatingAdd maxBytes 2 = maxBytes + 2 := by
  obtain small | short := fits
  · exact saturatingAdd_small small
  · unfold saturatingAdd at *
    omega

theorem LimitFits.behind {maxBytes : Nat} {front rest : List UInt8}
    (fits : LimitFits maxBytes (front ++ rest)) : LimitFits maxBytes rest := by
  refine fits.imp_right fun short => ?_
  rw [length_append] at short
  omega

variable {maxBytes : Nat} {reader : BufferedStream}

theorem readStdioMessage_eof (ended : reader.flatten = []) :
    (readStdioMessage maxBytes reader).1 = .eof := by
  have line := (readUntilNewline_eq (saturatingAdd maxBytes 2) reader).1
  rw [ended, take_nil, firstLineOf_plain not_mem_nil] at line
  rw [readStdioMessage]
  dsimp only
  rw [line]
  rfl

theorem last_plain {line : List UInt8} (plain : newline ∉ line) :
    (line.getLast? == some newline) = false := by
  rw [beq_eq_false_iff_ne]
  exact fun last => plain (mem_of_getLast? last)

theorem withoutCarriageReturn_length (line : List UInt8) :
    line.length ≤ (withoutCarriageReturn line).length + 1 := by
  rw [withoutCarriageReturn]
  split
  · rw [length_dropLast]
    omega
  · omega

theorem readStdioMessage_ended {part rest : List UInt8} (plain : newline ∉ part)
    (stream : reader.flatten = part ++ newline :: rest)
    (fits : LimitFits maxBytes (part ++ newline :: rest)) :
    (readStdioMessage maxBytes reader).1 = boundedMessage maxBytes (withoutCarriageReturn part) ∧
      (readStdioMessage maxBytes reader).2.flatten = rest := by
  obtain ⟨line, whole⟩ := readUntilNewline_eq (saturatingAdd maxBytes 2) reader
  rw [stream] at line whole
  rw [readStdioMessage]
  dsimp only
  by_cases short : part.length + 1 ≤ saturatingAdd maxBytes 2
  · have taken : firstLineOf ((part ++ newline :: rest).take (saturatingAdd maxBytes 2)) =
        part ++ [newline] := by
      rw [take_append, take_of_length_le (by omega), show
        saturatingAdd maxBytes 2 - part.length = saturatingAdd maxBytes 2 - part.length - 1 + 1 by
          omega, take_succ_cons, firstLineOf_ended plain]
    rw [line, taken] at whole ⊢
    have behind : (readUntilNewline (saturatingAdd maxBytes 2) reader).2.flatten = rest := by
      simpa using whole
    simp [behind]
  · have limit : saturatingAdd maxBytes 2 = maxBytes + 2 := by
      refine fits.reached ?_
      rw [length_append]
      omega
    rw [limit] at line whole short ⊢
    have taken : (part ++ newline :: rest).take (maxBytes + 2) = part.take (maxBytes + 2) := by
      rw [take_append_of_le_length (by omega)]
    have plainTaken : newline ∉ part.take (maxBytes + 2) := fun mem => plain (mem_of_mem_take mem)
    have length : (part.take (maxBytes + 2)).length = maxBytes + 2 := by
      rw [length_take]
      omega
    rw [taken, firstLineOf_plain plainTaken] at line
    rw [line] at whole ⊢
    have behind : (readUntilNewline (maxBytes + 2) reader).2.flatten =
        part.drop (maxBytes + 2) ++ newline :: rest := by
      rw [← append_cancel_left_eq (part.take (maxBytes + 2)), whole, ← append_assoc,
        take_append_drop]
    have discarded := discardStdioLine_ended
      (fun mem => plain (mem_of_mem_drop mem)) behind
    have tooLong : maxBytes < (withoutCarriageReturn part).length := by
      have counted := withoutCarriageReturn_length part
      omega
    rw [length, if_neg (by omega), last_plain plainTaken]
    simp [boundedMessage, length, discarded, tooLong]

theorem readStdioMessage_open {part : List UInt8} (plain : newline ∉ part) (nonempty : part ≠ [])
    (stream : reader.flatten = part) (fits : LimitFits maxBytes part) :
    (readStdioMessage maxBytes reader).1 = boundedMessage maxBytes part ∧
      (readStdioMessage maxBytes reader).2.flatten = [] := by
  obtain ⟨line, whole⟩ := readUntilNewline_eq (saturatingAdd maxBytes 2) reader
  rw [stream] at line whole
  have plainTaken : newline ∉ part.take (saturatingAdd maxBytes 2) :=
    fun mem => plain (mem_of_mem_take mem)
  have some := length_pos_iff.mpr nonempty
  rw [firstLineOf_plain plainTaken] at line
  rw [readStdioMessage]
  dsimp only
  rw [line] at whole ⊢
  rw [last_plain plainTaken]
  by_cases short : part.length < saturatingAdd maxBytes 2
  · have all : part.take (saturatingAdd maxBytes 2) = part :=
      take_of_length_le (by omega)
    rw [all] at whole ⊢
    have behind : (readUntilNewline (saturatingAdd maxBytes 2) reader).2.flatten = [] := by
      simpa using whole
    rw [if_neg (by omega)]
    simp [behind, show part.length ≠ saturatingAdd maxBytes 2 by omega]
  · have limit := fits.reached (by omega)
    rw [limit] at whole short plainTaken ⊢
    have length : (part.take (maxBytes + 2)).length = maxBytes + 2 := by
      rw [length_take]
      omega
    have behind : (readUntilNewline (maxBytes + 2) reader).2.flatten =
        part.drop (maxBytes + 2) := by
      rw [← append_cancel_left_eq (part.take (maxBytes + 2)), whole,
        take_append_drop]
    have discarded : (discardStdioLine (readUntilNewline (maxBytes + 2) reader).2).flatten = [] := by
      apply discardStdioLine_open
      rw [behind]
      exact fun mem => plain (mem_of_mem_drop mem)
    rw [length, if_neg (by omega)]
    simp [boundedMessage, length, discarded, show maxBytes < part.length by omega]

/-- The lines of the stream: those that a newline ends lose one carriage return, and a line that is
too long shows as such. -/
def stdioLines (maxBytes : Nat) (stream : List UInt8) : List StdioMessage :=
  (endedParts newline stream).map (fun part => boundedMessage maxBytes (withoutCarriageReturn part)) ++
    (remainder newline stream).map (boundedMessage maxBytes)

theorem boundedMessage_ne_eof (line : List UInt8) : boundedMessage maxBytes line ≠ .eof := by
  rw [boundedMessage]
  split <;> exact StdioMessage.noConfusion

theorem stdioMessages_more {reads : Nat} (more : (readStdioMessage maxBytes reader).1 ≠ .eof) :
    stdioMessages maxBytes (reads + 1) reader =
      (stdioMessages maxBytes reads (readStdioMessage maxBytes reader).2).map
        ((readStdioMessage maxBytes reader).1 :: ·) := by
  rw [stdioMessages]
  split
  next rest ended => exact absurd (congrArg Prod.fst ended) more
  next message rest read => rw [read]

theorem stdioMessages_eof (ended : reader.flatten = []) (reads : Nat) :
    stdioMessages maxBytes (reads + 1) reader = some [] := by
  have nothing := @readStdioMessage_eof maxBytes _ ended
  rw [stdioMessages]
  split
  next => rfl
  next message rest other read =>
    rw [read] at nothing
    exact absurd nothing (by simpa using other)

/-- The messages are the lines of the stream, each read once and to its end. -/
theorem stdioMessages_eq (reader : BufferedStream) (fits : LimitFits maxBytes reader.flatten)
    {reads : Nat} (enough : (stdioLines maxBytes reader.flatten).length < reads) :
    stdioMessages maxBytes reads reader = some (stdioLines maxBytes reader.flatten) := by
  obtain ⟨reads, rfl⟩ := exists_eq_add_one.mpr (zero_lt_of_lt enough)
  generalize content : reader.flatten = stream at fits enough ⊢
  induction stream using stream_induction newline generalizing reader reads with
  | plain part plain =>
    rw [stdioLines, endedParts_plain plain, remainder, openPart_plain plain] at enough ⊢
    cases part with
    | nil => exact stdioMessages_eof content reads
    | cons byte part =>
      obtain ⟨first, rest⟩ := readStdioMessage_open plain (cons_ne_nil _ _) content fits
      obtain ⟨reads, rfl⟩ := exists_eq_add_one.mpr (show 0 < reads by simpa using enough)
      rw [stdioMessages_more (first ▸ boundedMessage_ne_eof _), first, stdioMessages_eof rest]
      rfl
  | ended part rest plain ih =>
    obtain ⟨first, behind⟩ := readStdioMessage_ended plain content fits
    have lines : stdioLines maxBytes (part ++ newline :: rest) =
        boundedMessage maxBytes (withoutCarriageReturn part) :: stdioLines maxBytes rest := by
      rw [stdioLines, stdioLines, endedParts_append_cons plain, remainder, remainder,
        openPart_append_cons plain]
      rfl
    rw [lines] at enough ⊢
    rw [length_cons] at enough
    obtain ⟨reads, rfl⟩ := exists_eq_add_one.mpr (show 0 < reads by omega)
    have restFits : LimitFits maxBytes rest := by
      rw [append_cons] at fits
      exact fits.behind
    rw [stdioMessages_more (first ▸ boundedMessage_ne_eof _), first,
      ih _ reads behind restFits (lt_of_succ_lt_succ enough)]
    rfl

theorem sample_stdioMessages :
    stdioMessages 2 4 [[97, 97], [97], [97, 10, 98], [98, 13], [10, 99]] =
      some [.tooLarge, .message [98, 98], .message [99]] :=
  stdioMessages_eq [[97, 97], [97], [97, 10, 98], [98, 13], [10, 99]] (.inl (by decide)) (by decide)

end Messages

end PortMate
