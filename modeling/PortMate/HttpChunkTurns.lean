import PortMate.HttpOverflow

namespace PortMate

open List ChunkReader Except Option

inductive ArithmeticFault
  | subtraction
  | addition
  | slice
  deriving DecidableEq

section Checked

variable {α : Type}

def checkedMinus (a b : Nat) : Except ArithmeticFault Nat :=
  if b ≤ a then .ok (a - b) else .error .subtraction

def checkedPlus (a b : Nat) : Except ArithmeticFault Nat :=
  if a + b < 2 ^ 64 then .ok (a + b) else .error .addition

/-- `&bytes[start..stop]` -/
def checkedSlice (bytes : List α) (start stop : Nat) : Except ArithmeticFault (List α) :=
  if start ≤ stop ∧ stop ≤ bytes.length then .ok ((bytes.take stop).drop start) else .error .slice

theorem checkedMinus_ok {a b : Nat} (fits : b ≤ a) : checkedMinus a b = .ok (a - b) := if_pos fits

theorem checkedPlus_ok {a b : Nat} (fits : a + b < 2 ^ 64) : checkedPlus a b = .ok (a + b) :=
  if_pos fits

theorem checkedSlice_ok {bytes : List α} {start stop : Nat} (order : start ≤ stop)
    (inside : stop ≤ bytes.length) :
    checkedSlice bytes start stop = .ok ((bytes.take stop).drop start) :=
  if_pos ⟨order, inside⟩

theorem checkedSlice_rest {bytes : List α} {start : Nat} (inside : start ≤ bytes.length) :
    checkedSlice bytes start bytes.length = .ok (bytes.drop start) := by
  rw [checkedSlice_ok inside (Nat.le_refl _), take_length]

end Checked

/-- What the reader waits for: the line of a size, a trailer, or the bytes of a chunk. -/
inductive ChunkPhase
  | size
  | trailer (trailerCount : Nat)
  | data (size : Nat)
  deriving DecidableEq

structure ChunkLoop where
  reader : ChunkReader
  body : List UInt8
  phase : ChunkPhase

inductive ChunkTurn
  | goesOn (loop : ChunkLoop)
  | finished (body : List UInt8)
  | failed (message : String)

section Turns

/-- One read into the buffer, which is as long as `httpBufferBytes`. -/
def readMore (loop : ChunkLoop) (remaining : Nat) (closed : String) : ChunkTurn :=
  match readSome (min remaining httpBufferBytes) loop.reader.segments with
  | none => .failed closed
  | some (bytes, segments) => .goesOn { loop with reader := loop.reader.extend bytes segments }

/-- The size and the extension, where the line has one. -/
def chunkSizeParts (line : List UInt8) :
    Except ArithmeticFault (List UInt8 × Option (List UInt8)) :=
  match line.findIdx? (· = byteOf ';') with
  | none => .ok (line, none)
  | some separator => do
    let sizeBytes ← checkedSlice line 0 separator
    let start ← checkedPlus separator 1
    let extension ← checkedSlice line start line.length
    .ok (sizeBytes, some extension)

def checkedChunkSize (line : List UInt8) : Except ArithmeticFault (Except String Nat) := do
  let (sizeBytes, extension) ← chunkSizeParts line
  if sizeBytes.isEmpty || !sizeBytes.all fun byte => (hexDigit? (Char.ofNat byte.toNat)).isSome then
    .ok (.error "invalid HTTP chunk size")
  else if extension.any fun extension => extension.isEmpty ||
      extension.any fun byte => 128 ≤ byte || isAsciiControl byte then
    .ok (.error "invalid HTTP chunk extension")
  else
    match usizeFromHex sizeBytes with
    | none => .ok (.error "invalid HTTP chunk size")
    | some size => .ok (.ok size)

def checkedTrailer (line : List UInt8) : Except ArithmeticFault Bool :=
  match line.findIdx? (· = byteOf ':') with
  | none => .ok false
  | some separator => do
    let name ← checkedSlice line 0 separator
    if name.isEmpty || !name.all isHttpTokenByte then .ok false
    else
      let start ← checkedPlus separator 1
      let value ← checkedSlice line start line.length
      .ok (!isSingleValueHttpHeader (name.map fun byte => (Char.ofNat byte.toNat).toLower) &&
        value.all fun byte => byte = byteOf '\t' || !isAsciiControl byte)

/-- A line of framing, where it is there; otherwise one more read. -/
def chunkLineTurn (loop : ChunkLoop)
    (next : List UInt8 → ChunkReader → Except ArithmeticFault ChunkTurn) :
    Except ArithmeticFault ChunkTurn := do
  let reader := loop.reader
  let pending ← checkedSlice reader.encoded reader.position reader.encoded.length
  match findPattern crlf pending with
  | some lineEnd =>
    let stop ← checkedPlus reader.position lineEnd
    let line ← checkedSlice reader.encoded reader.position stop
    let length ← checkedPlus lineEnd 2
    let position ← checkedPlus reader.position length
    let framingBytes ← checkedPlus reader.framingBytes length
    if maxHttpChunkFramingBytes < framingBytes then
      .ok (.failed "HTTP chunk framing exceeds the 64 KiB limit")
    else next line { reader with position, framingBytes }
  | none =>
    if maxHttpChunkFramingBytes ≤ reader.encoded.length - reader.position then
      .ok (.failed "HTTP chunk framing exceeds the 64 KiB limit")
    else
      let most ← checkedPlus maxHttpChunkFramingBytes 1
      let beyond ← checkedMinus most reader.encoded.length
      let remaining ← checkedPlus beyond reader.position
      .ok (readMore loop remaining "connection closed before HTTP chunk framing")

def sizeTurn (maxBodyBytes : Nat) (loop : ChunkLoop) : Except ArithmeticFault ChunkTurn :=
  chunkLineTurn loop fun line reader => do
    match ← checkedChunkSize line with
    | .error message => .ok (.failed message)
    | .ok size =>
      if maxBodyBytes - loop.body.length < size then .ok (.failed "HTTP body is too large")
      else if size = 0 then .ok (.goesOn ⟨reader, loop.body, .trailer 0⟩)
      else .ok (.goesOn ⟨reader, loop.body, .data size⟩)

def trailerTurn (trailerCount : Nat) (loop : ChunkLoop) : Except ArithmeticFault ChunkTurn :=
  chunkLineTurn loop fun line reader => do
    if line.isEmpty then
      if reader.position ≠ reader.encoded.length then
        .ok (.failed "HTTP request contains bytes after its chunked body")
      else .ok (.finished loop.body)
    else
      let trailerCount ← checkedPlus trailerCount 1
      if maxHttpHeaders < trailerCount then
        .ok (.failed "HTTP chunk trailers exceed the 128-field limit")
      else if !(← checkedTrailer line) then .ok (.failed "invalid HTTP chunk trailer")
      else .ok (.goesOn ⟨reader, loop.body, .trailer trailerCount⟩)

def dataTurn (size : Nat) (loop : ChunkLoop) : Except ArithmeticFault ChunkTurn := do
  let reader := loop.reader
  let required ← checkedPlus size 2
  let available := reader.encoded.length - reader.position
  if available < required then
    let remaining ← checkedMinus required available
    .ok (readMore loop remaining "connection closed before HTTP chunk data")
  else
    let chunkEnd ← checkedPlus reader.position size
    let position ← checkedPlus chunkEnd 2
    -- `get`: nothing where the range is not inside.
    if (checkedSlice reader.encoded chunkEnd position).toOption ≠ some crlf then
      .ok (.failed "HTTP chunk data is not terminated by CRLF")
    else
      let data ← checkedSlice reader.encoded reader.position chunkEnd
      let framingBytes ← checkedPlus reader.framingBytes 2
      if maxHttpChunkFramingBytes < framingBytes then
        .ok (.failed "HTTP chunk framing exceeds the 64 KiB limit")
      else .ok (.goesOn ⟨{ reader with position, framingBytes }, loop.body ++ data, .size⟩)

/-- One turn of the loops of `read_http_chunked_body`. -/
def chunkTurn (maxBodyBytes : Nat) (loop : ChunkLoop) : Except ArithmeticFault ChunkTurn :=
  match loop.phase with
  | .size => sizeTurn maxBodyBytes loop
  | .trailer trailerCount => trailerTurn trailerCount loop
  | .data size => dataTurn size loop

def chunkedBodyStart (initialBody : List UInt8) (segments : List (List UInt8)) : ChunkLoop :=
  ⟨⟨initialBody, 0, 0, segments⟩, [], .size⟩

/-- What the loops come to in a number of turns. -/
inductive TurnsTo (maxBodyBytes : Nat) (start : ChunkLoop) : Nat → ChunkLoop → Prop
  | start : TurnsTo maxBodyBytes start 0 start
  | turn {turns : Nat} {loop next : ChunkLoop} (before : TurnsTo maxBodyBytes start turns loop)
      (goes : chunkTurn maxBodyBytes loop = .ok (.goesOn next)) :
      TurnsTo maxBodyBytes start (turns + 1) next

end Turns

section Lines

theorem findIdx?_span {bytes : List UInt8} {stop : UInt8} {index : Nat}
    (found : bytes.findIdx? (· = stop) = some index) :
    index < bytes.length ∧ bytes.takeWhile (· ≠ stop) = bytes.take index ∧
      bytes.dropWhile (· ≠ stop) = bytes.drop index ∧ bytes.drop index ≠ [] := by
  induction bytes generalizing index with
  | nil => cases found
  | cons byte bytes ih =>
    rw [findIdx?_cons] at found
    split at found
    next same =>
      obtain rfl := Option.some.inj found
      have here : byte = stop := by simpa using same
      simp [here]
    next differs =>
      obtain ⟨later, foundLater, rfl⟩ := map_eq_some_iff.mp found
      obtain ⟨inside, taken, left, some⟩ := ih foundLater
      have other : ¬ byte = stop := by simpa using differs
      refine ⟨Nat.succ_lt_succ inside, ?_, ?_, some⟩
      · rw [takeWhile_cons_of_pos (by simpa using other), taken]
        rfl
      · rw [dropWhile_cons_of_pos (by simpa using other), left]
        rfl

theorem findIdx?_none_span {bytes : List UInt8} {stop : UInt8}
    (none : bytes.findIdx? (· = stop) = none) :
    bytes.takeWhile (· ≠ stop) = bytes ∧ bytes.dropWhile (· ≠ stop) = [] := by
  have plain : ∀ byte ∈ bytes, decide (byte ≠ stop) = true := by
    simpa [findIdx?_eq_none_iff] using none
  exact ⟨takeWhile_eq_self_iff.mpr plain, dropWhile_eq_nil_iff.mpr plain⟩

theorem checkedChunkSize_eq {line : List UInt8} (short : line.length < 2 ^ 63) :
    checkedChunkSize line = .ok (httpChunkSize line) := by
  rw [checkedChunkSize, chunkSizeParts, httpChunkSize]
  split
  next none =>
    obtain ⟨taken, left⟩ := findIdx?_none_span none
    rw [taken, left]
    simp only [except_bind_ok, isEmpty_nil, Bool.not_true, Bool.false_and, Bool.false_eq_true,
      if_false, any_none]
    split
    · rfl
    · split <;> simp_all
  next separator found =>
    obtain ⟨inside, taken, left, some⟩ := findIdx?_span found
    have nonempty : (line.drop separator).isEmpty = false := by simpa using some
    rw [taken, left, checkedSlice_ok (Nat.zero_le _) (Nat.le_of_lt inside),
      checkedPlus_ok (by omega)]
    simp only [except_bind_ok, checkedSlice_rest (show separator + 1 ≤ line.length from inside),
      drop_zero, nonempty, Bool.not_false, Bool.true_and, tail_drop, any_some]
    split
    · rfl
    · split
      · rfl
      · split <;> simp_all

theorem checkedTrailer_eq {line : List UInt8} (short : line.length < 2 ^ 63) :
    checkedTrailer line = .ok (isHttpTrailer line) := by
  rw [checkedTrailer, isHttpTrailer]
  split
  next none =>
    rw [(findIdx?_none_span none).2]
  next separator found =>
    obtain ⟨inside, taken, left, some⟩ := findIdx?_span found
    rw [checkedSlice_ok (Nat.zero_le _) (Nat.le_of_lt inside), checkedPlus_ok (by omega), left,
      taken]
    cases behind : line.drop separator with
    | nil => exact absurd behind some
    | cons byte value =>
      have rest : line.drop (separator + 1) = value := by
        rw [← tail_drop, behind, tail_cons]
      simp only [except_bind_ok, drop_zero, rest,
        checkedSlice_rest (show separator + 1 ≤ line.length from inside)]
      cases (line.take separator).isEmpty <;>
        cases (line.take separator).all isHttpTokenByte <;> simp

variable {loop : ChunkLoop}

theorem chunkLineTurn_eq (within : loop.reader.Within) (small : loop.reader.encoded.length < 2 ^ 63)
    (framed : loop.reader.framingBytes ≤ maxHttpChunkFramingBytes)
    (next : List UInt8 → ChunkReader → Except ArithmeticFault ChunkTurn) :
    chunkLineTurn loop next =
      match findPattern crlf loop.reader.pending with
      | some lineEnd =>
        if maxHttpChunkFramingBytes < loop.reader.framingBytes + (lineEnd + 2) then
          .ok (.failed "HTTP chunk framing exceeds the 64 KiB limit")
        else next (loop.reader.pending.take lineEnd) (loop.reader.advance (lineEnd + 2))
      | none =>
        if maxHttpChunkFramingBytes ≤ loop.reader.encoded.length - loop.reader.position then
          .ok (.failed "HTTP chunk framing exceeds the 64 KiB limit")
        else if maxHttpChunkFramingBytes + 1 < loop.reader.encoded.length then .error .subtraction
        else .ok (readMore loop (maxHttpChunkFramingBytes + 1 -
          (loop.reader.encoded.length - loop.reader.position))
          "connection closed before HTTP chunk framing") := by
  unfold ChunkReader.Within at within
  have most : maxHttpChunkFramingBytes = 65536 := rfl
  rw [chunkLineTurn, checkedSlice_rest within]
  simp only [except_bind_ok]
  rw [show loop.reader.encoded.drop loop.reader.position = loop.reader.pending from rfl]
  split
  next lineEnd found =>
    have fits : lineEnd + 2 ≤ loop.reader.pending.length := findPattern_length found
    rw [pending_length] at fits
    rw [checkedPlus_ok (by omega), except_bind_ok, checkedSlice_ok (by omega) (by omega),
      except_bind_ok, checkedPlus_ok (by omega), except_bind_ok, checkedPlus_ok (by omega),
      except_bind_ok, checkedPlus_ok (by omega), except_bind_ok]
    have line : (loop.reader.encoded.take (loop.reader.position + lineEnd)).drop
        loop.reader.position = loop.reader.pending.take lineEnd := by
      rw [ChunkReader.pending, drop_take, Nat.add_sub_cancel_left]
    rw [line]
    rfl
  next none =>
    split
    next => rfl
    next short =>
      rw [checkedPlus_ok (by omega), except_bind_ok, checkedMinus]
      split
      next near =>
        rw [if_neg (by omega), except_bind_ok, checkedPlus_ok (by omega), except_bind_ok,
          show maxHttpChunkFramingBytes + 1 - loop.reader.encoded.length + loop.reader.position =
            maxHttpChunkFramingBytes + 1 - (loop.reader.encoded.length - loop.reader.position) by
              omega]
      next far =>
        rw [if_pos (by omega)]
        rfl

end Lines

section Invariant

def ChunkPhase.due : ChunkPhase → Nat
  | .data length => length
  | _ => 0

/-- What holds at every turn: all bytes behind the reader are body or framing, and the buffer is at
most as far ahead as the limits let it be. -/
structure ChunkLoop.Sound (maxBodyBytes initial : Nat) (loop : ChunkLoop) : Prop where
  within : loop.reader.Within
  counted : loop.reader.position = loop.body.length + loop.reader.framingBytes
  framed : loop.reader.framingBytes ≤ maxHttpChunkFramingBytes
  due : loop.body.length + loop.phase.due ≤ maxBodyBytes
  grown : loop.reader.encoded.length ≤ initial ∨
    loop.reader.encoded.length ≤
      loop.reader.position + (maxBodyBytes + maxHttpChunkFramingBytes + 2)
  trailers : ∀ trailerCount, loop.phase = .trailer trailerCount → trailerCount ≤ maxHttpHeaders

/-- A line has to be read on while the buffer holds more than the limit of the framing. -/
structure ChunkLoop.LateLine (loop : ChunkLoop) : Prop where
  line : ∀ size, loop.phase ≠ .data size
  open' : findPattern crlf loop.reader.pending = none
  short : loop.reader.pending.length < maxHttpChunkFramingBytes
  late : maxHttpChunkFramingBytes + 1 < loop.reader.encoded.length

variable {maxBodyBytes initial : Nat} {loop next : ChunkLoop}

theorem chunkedBodyStart_sound (initialBody : List UInt8) (segments : List (List UInt8)) :
    (chunkedBodyStart initialBody segments).Sound maxBodyBytes initialBody.length :=
  ⟨Nat.zero_le _, rfl, Nat.zero_le _, Nat.zero_le maxBodyBytes, .inl (Nat.le_refl _),
    fun _ other => ChunkPhase.noConfusion other⟩

theorem ChunkLoop.Sound.small (sound : loop.Sound maxBodyBytes initial)
    (admitted : maxBodyBytes ≤ maxHttpBodyBytes) (slice : initial < 2 ^ 63) :
    loop.reader.encoded.length < 2 ^ 63 := by
  have counted := sound.counted
  have framed := sound.framed
  have due := sound.due
  have grown := sound.grown
  unfold maxHttpBodyBytes at admitted
  unfold maxHttpChunkFramingBytes at framed grown
  omega

theorem chunkLineRoom_near {reader : ChunkReader} (within : reader.Within)
    (near : reader.encoded.length ≤ maxHttpChunkFramingBytes + 1)
    (short : reader.pending.length < maxHttpChunkFramingBytes) :
    chunkLineRoom true reader = .ok (maxHttpChunkFramingBytes + 1 - reader.pending.length) := by
  rw [pending_length] at short ⊢
  exact chunkLineRoom_eq within short (.inr near)

/-- What one turn for a line may do, and what the line reader does from there. -/
inductive LineTurn (loop : ChunkLoop)
    (next : List UInt8 → ChunkReader → Except ArithmeticFault ChunkTurn) :
    Except ArithmeticFault ChunkTurn → Prop
  | refused (message : String) (same : readHttpChunkLine true loop.reader = .error message) :
      LineTurn loop next (.ok (.failed message))
  | line {lineEnd : Nat} (found : findPattern crlf loop.reader.pending = some lineEnd)
      (limit : loop.reader.framingBytes + (lineEnd + 2) ≤ maxHttpChunkFramingBytes) :
      LineTurn loop next
        (next (loop.reader.pending.take lineEnd) (loop.reader.advance (lineEnd + 2)))
  | more {bytes : List UInt8} {segments : List (List UInt8)}
      (open' : findPattern crlf loop.reader.pending = none)
      (near : loop.reader.encoded.length ≤ maxHttpChunkFramingBytes + 1)
      (short : loop.reader.pending.length < maxHttpChunkFramingBytes)
      (read : readSome (min (maxHttpChunkFramingBytes + 1 - loop.reader.pending.length)
        httpBufferBytes) loop.reader.segments = some (bytes, segments))
      (same : readHttpChunkLine true loop.reader =
        readHttpChunkLine true (loop.reader.extend bytes segments)) :
      LineTurn loop next (.ok (.goesOn { loop with reader := loop.reader.extend bytes segments }))
  | late (open' : findPattern crlf loop.reader.pending = none)
      (short : loop.reader.pending.length < maxHttpChunkFramingBytes)
      (late : maxHttpChunkFramingBytes + 1 < loop.reader.encoded.length)
      (same : readHttpChunkLine true loop.reader = .error "attempt to subtract with overflow") :
      LineTurn loop next (.error .subtraction)

theorem chunkLineTurn_cases (sound : loop.Sound maxBodyBytes initial)
    (small : loop.reader.encoded.length < 2 ^ 63)
    (next : List UInt8 → ChunkReader → Except ArithmeticFault ChunkTurn) :
    LineTurn loop next (chunkLineTurn loop next) := by
  rw [chunkLineTurn_eq sound.within small sound.framed, ← pending_length]
  have unfolded := readHttpChunkLine.eq_def true loop.reader
  split
  next lineEnd found =>
    split
    next long =>
      refine .refused _ (unfolded.trans ?_)
      split
      next again here =>
        cases Option.some.inj (found.symm.trans here)
        rw [if_pos long]
      next none => cases found.symm.trans none
    next fits => exact .line found (Nat.le_of_not_lt fits)
  next open' =>
    split
    next long =>
      refine .refused _ (unfolded.trans ?_)
      split
      next here => cases open'.symm.trans here
      next => rw [if_pos (by rwa [← pending_length])]
    next long =>
      have short := Nat.lt_of_not_le long
      have unread : ¬ maxHttpChunkFramingBytes ≤ loop.reader.encoded.length - loop.reader.position := by
        rwa [← pending_length]
      split
      next late =>
        refine .late open' short late (unfolded.trans ?_)
        split
        next here => cases open'.symm.trans here
        next =>
          rw [if_neg unread]
          split
          next error given =>
            cases (chunkLineRoom_checked late).symm.trans given
            rfl
          next given => cases (chunkLineRoom_checked late).symm.trans given
      next near =>
        have near := Nat.le_of_not_lt near
        have room := chunkLineRoom_near sound.within near short
        rw [readMore]
        split
        next ended =>
          refine .refused _ (unfolded.trans ?_)
          split
          next here => cases open'.symm.trans here
          next =>
            rw [if_neg unread]
            split
            next given => cases room.symm.trans given
            next places given =>
              cases ok.inj (room.symm.trans given)
              split
              next => rfl
              next read => cases ended.symm.trans read
        next bytes segments read =>
          refine .more open' near short read (unfolded.trans ?_)
          split
          next here => cases open'.symm.trans here
          next =>
            rw [if_neg unread]
            split
            next given => cases room.symm.trans given
            next places given =>
              cases ok.inj (room.symm.trans given)
              split
              next ended => cases read.symm.trans ended
              next again =>
                obtain ⟨rfl, rfl⟩ := Prod.mk.inj (Option.some.inj (read.symm.trans again))
                rfl

theorem chunkLineTurn_late (sound : loop.Sound maxBodyBytes initial)
    (small : loop.reader.encoded.length < 2 ^ 63) (late : loop.LateLine)
    (next : List UInt8 → ChunkReader → Except ArithmeticFault ChunkTurn) :
    chunkLineTurn loop next = .error .subtraction := by
  have short := late.short
  rw [pending_length] at short
  rw [chunkLineTurn_eq sound.within small sound.framed, late.open']
  dsimp only
  rw [if_neg (Nat.not_le_of_lt short), if_pos late.late]

end Invariant

end PortMate
