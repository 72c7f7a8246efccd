import PortMate.HttpRequests

namespace PortMate

open List Except

/-- The first line of a stream and what follows its end. -/
def takeLine (stream : List UInt8) : Option (List UInt8 × List UInt8) :=
  (findPattern crlf stream).map fun lineEnd => (stream.take lineEnd, stream.drop (lineEnd + 2))

theorem takeLine_eq {stream line after : List UInt8} (read : takeLine stream = some (line, after)) :
    findPattern crlf stream = some line.length ∧ stream.length = line.length + 2 + after.length := by
  obtain ⟨lineEnd, found, split⟩ := Option.map_eq_some_iff.mp read
  obtain ⟨rfl, rfl⟩ := Prod.mk.inj split
  have fits : lineEnd + 2 ≤ stream.length := findPattern_length found
  rw [length_take, length_drop, Nat.min_eq_left (by omega)]
  exact ⟨found, by omega⟩

namespace ChunkReader

def ahead (reader : ChunkReader) : List UInt8 := reader.pending ++ reader.segments.flatten

def total (reader : ChunkReader) : Nat := reader.encoded.length + reader.segments.flatten.length

def Within (reader : ChunkReader) : Prop := reader.position ≤ reader.encoded.length

structure Follows (reader after : ChunkReader) : Prop where
  within : after.Within
  total : after.total = reader.total

theorem Follows.trans {first second third : ChunkReader} (start : first.Follows second)
    (next : second.Follows third) : first.Follows third :=
  ⟨next.within, next.total.trans start.total⟩

variable {reader : ChunkReader}

theorem ahead_length (within : reader.Within) :
    reader.position + reader.ahead.length = reader.total := by
  unfold ahead pending total Within at *
  rw [length_append, length_drop]
  omega

theorem pending_length : reader.pending.length = reader.encoded.length - reader.position :=
  length_drop

theorem follows_extend (within : reader.Within) {room : Nat} {bytes : List UInt8}
    {segments : List (List UInt8)} (read : readSome room reader.segments = some (bytes, segments)) :
    reader.Follows (reader.extend bytes segments) := by
  have counted := readSome_length read
  unfold Within at within
  constructor
  · show reader.position ≤ (reader.encoded ++ bytes).length
    rw [length_append]
    omega
  · show (reader.encoded ++ bytes).length + segments.flatten.length = _
    rw [length_append, total]
    omega

theorem pending_extend (within : reader.Within) (bytes : List UInt8)
    (segments : List (List UInt8)) :
    (reader.extend bytes segments).pending = reader.pending ++ bytes :=
  drop_append_of_le_length within

theorem ahead_extend (within : reader.Within) {room : Nat} {bytes : List UInt8}
    {segments : List (List UInt8)} (read : readSome room reader.segments = some (bytes, segments)) :
    (reader.extend bytes segments).ahead = reader.ahead := by
  rw [ahead, pending_extend within, ahead, append_assoc]
  exact congrArg (reader.pending ++ ·) (readSome_flatten read)

theorem ahead_skip {length framing : Nat} (fits : length ≤ reader.pending.length) :
    ({ reader with position := reader.position + length, framingBytes := framing } :
      ChunkReader).ahead = reader.ahead.drop length := by
  rw [ahead, ahead, drop_append_of_le_length fits]
  exact congrArg (· ++ reader.segments.flatten) drop_drop.symm

end ChunkReader

open ChunkReader

theorem chunkLineRoom_eq {overflowChecks : Bool} {reader : ChunkReader} (within : reader.Within)
    (short : reader.encoded.length - reader.position < maxHttpChunkFramingBytes)
    (unhindered : overflowChecks = false ∨ reader.encoded.length ≤ maxHttpChunkFramingBytes + 1) :
    chunkLineRoom overflowChecks reader =
      .ok (maxHttpChunkFramingBytes + 1 - (reader.encoded.length - reader.position)) := by
  unfold ChunkReader.Within at within
  unfold chunkLineRoom usizeSub usizeAdd
  unfold maxHttpChunkFramingBytes at *
  by_cases fits : reader.encoded.length ≤ 64 * 1024 + 1
  · simp only [fits, if_true]
    rw [if_pos (by omega)]
    exact congrArg _ (by omega)
  · have unchecked : overflowChecks = false := by simpa [fits] using unhindered
    simp only [fits, if_false, unchecked, Bool.false_eq_true]
    -- Both steps leave their remainder modulo 2 ^ 64.
    split
    · exact congrArg _ (by omega)
    · exact congrArg _ (by omega)

theorem chunkLineRoom_checked {reader : ChunkReader}
    (long : maxHttpChunkFramingBytes + 1 < reader.encoded.length) :
    chunkLineRoom true reader = .error "attempt to subtract with overflow" := by
  unfold chunkLineRoom usizeSub
  rw [if_neg (Nat.not_le_of_lt long), if_pos rfl]

structure LineRead (reader : ChunkReader) (line : List UInt8) (after : ChunkReader) : Prop where
  taken : takeLine reader.ahead = some (line, after.ahead)
  follows : reader.Follows after
  counted : after.framingBytes = reader.framingBytes + (line.length + 2)
  limit : after.framingBytes ≤ maxHttpChunkFramingBytes

theorem lineRead_pending {reader : ChunkReader} {lineEnd : Nat} (within : reader.Within)
    (found : findPattern crlf reader.pending = some lineEnd)
    (limit : reader.framingBytes + (lineEnd + 2) ≤ maxHttpChunkFramingBytes) :
    LineRead reader (reader.pending.take lineEnd) (reader.advance (lineEnd + 2)) := by
  have fits : lineEnd + 2 ≤ reader.pending.length := findPattern_length found
  have counted : (reader.pending.take lineEnd).length = lineEnd := by
    rw [length_take]
    omega
  refine ⟨?_, ⟨?_, rfl⟩, ?_, limit⟩
  · have rest : (reader.advance (lineEnd + 2)).ahead = reader.ahead.drop (lineEnd + 2) :=
      ahead_skip fits
    rw [takeLine, rest, ChunkReader.ahead, findPattern_append _ found, Option.map_some,
      take_append_of_le_length (by omega)]
  · rw [pending_length] at fits
    unfold ChunkReader.Within at *
    show reader.position + (lineEnd + 2) ≤ reader.encoded.length
    omega
  · rw [counted]
    rfl

theorem readHttpChunkLine_ok {overflowChecks : Bool} {reader after : ChunkReader}
    {line : List UInt8} (within : reader.Within)
    (read : readHttpChunkLine overflowChecks reader = .ok (line, after)) :
    LineRead reader line after := by
  fun_induction readHttpChunkLine overflowChecks reader with
  | case2 reader lineEnd found limit =>
    obtain ⟨rfl, rfl⟩ := Prod.mk.inj (ok.inj read)
    exact lineRead_pending within found (Nat.le_of_not_lt limit)
  | case6 reader none short room given bytes segments found ih =>
    have extended := follows_extend within found
    have rest := ih extended.within read
    refine ⟨?_, extended.trans rest.follows, rest.counted, rest.limit⟩
    rw [← ahead_extend within found]
    exact rest.taken
  | _ => simp at read

theorem line_unfinished {reader : ChunkReader} {line rest : List UInt8}
    (ahead : takeLine reader.ahead = some (line, rest))
    (none : findPattern crlf reader.pending = none) :
    reader.pending.length < line.length + 2 ∧ reader.pending.length < reader.ahead.length := by
  have placed := takeLine_eq ahead
  have beyond : reader.pending.length < line.length + 2 := by
    by_contra inside
    have found := findPattern_inside (by decide) placed.1 (Nat.le_of_not_lt inside)
    rw [none] at found
    cases found
  exact ⟨beyond, by omega⟩

theorem readHttpChunkLine_reads {overflowChecks : Bool} {reader : ChunkReader}
    {line rest : List UInt8} (within : reader.Within)
    (ahead : takeLine reader.ahead = some (line, rest))
    (limit : reader.framingBytes + (line.length + 2) ≤ maxHttpChunkFramingBytes)
    (unhindered : overflowChecks = false ∨ reader.total ≤ maxHttpChunkFramingBytes + 2) :
    ∃ after, readHttpChunkLine overflowChecks reader = .ok (line, after) := by
  have placed := takeLine_eq ahead
  fun_induction readHttpChunkLine overflowChecks reader with
  | case1 reader lineEnd found exceeds =>
    have here : findPattern crlf reader.ahead = some lineEnd := findPattern_append _ found
    cases Option.some.inj (here.symm.trans placed.1)
    omega
  | case2 reader lineEnd found fits =>
    have read := lineRead_pending within found (Nat.le_of_not_lt fits)
    obtain ⟨same, -⟩ := Prod.mk.inj (Option.some.inj (read.taken.symm.trans ahead))
    rw [same]
    exact ⟨_, rfl⟩
  | case3 reader none long =>
    have unfinished := line_unfinished ahead none
    rw [pending_length] at unfinished
    omega
  | case4 reader none short error given =>
    have unfinished := line_unfinished ahead none
    have counted := ahead_length within
    rw [pending_length] at unfinished
    rw [chunkLineRoom_eq within (Nat.lt_of_not_le short) (unhindered.imp_right fun _ => by omega)]
      at given
    cases given
  | case5 reader none short room given empty =>
    have unfinished := line_unfinished ahead none
    have counted := ahead_length within
    rw [pending_length] at unfinished
    rw [chunkLineRoom_eq within (Nat.lt_of_not_le short) (unhindered.imp_right fun _ => by omega)]
      at given
    have places : 0 < min room httpBufferBytes := by
      cases ok.inj given
      unfold httpBufferBytes
      omega
    have nothing := readSome_none places empty
    rw [ChunkReader.ahead, nothing, append_nil, pending_length] at unfinished
    omega
  | case6 reader none short room given bytes segments found ih =>
    have extended := follows_extend within found
    rw [← ahead_extend within found] at ahead placed
    exact ih extended.within ahead limit (extended.total ▸ unhindered) placed

/-- Nothing is pending, and the stream comes byte by byte. -/
structure Tight (reader : ChunkReader) : Prop where
  drained : reader.position = reader.encoded.length
  single : Single reader.segments

theorem Tight.pending {reader : ChunkReader} (tight : Tight reader) : reader.pending = [] :=
  drop_eq_nil_of_le (Nat.le_of_eq tight.drained.symm)

theorem readHttpChunkLine_single {reader after : ChunkReader} {line : List UInt8}
    (within : reader.Within) (single : Single reader.segments)
    (fresh : findPattern crlf reader.pending.dropLast = none)
    (near : reader.pending ≠ [] → reader.encoded.length ≤ maxHttpChunkFramingBytes + 2)
    (read : readHttpChunkLine true reader = .ok (line, after)) :
    Tight after ∧ after.encoded.length ≤ maxHttpChunkFramingBytes + 2 := by
  fun_induction readHttpChunkLine true reader with
  | case2 reader lineEnd found limit =>
    obtain ⟨rfl, rfl⟩ := Prod.mk.inj (ok.inj read)
    have fits : lineEnd + 2 ≤ reader.pending.length := findPattern_length found
    have filled : reader.pending ≠ [] := ne_nil_of_length_pos (by omega)
    have last : lineEnd + 2 = reader.pending.length := by
      by_contra early
      rw [← dropLast_append_getLast filled] at found
      have inside := findPattern_inside (by decide) found
        (show lineEnd + 2 ≤ _ by rw [length_dropLast]; omega)
      rw [fresh] at inside
      cases inside
    rw [pending_length] at last
    unfold ChunkReader.Within at within
    refine ⟨⟨?_, single⟩, near filled⟩
    show reader.position + (lineEnd + 2) = reader.encoded.length
    omega
  | case6 reader none short room given bytes segments found ih =>
    obtain ⟨one, singleRest⟩ := readSome_single single found
    obtain ⟨byte, rfl⟩ := length_eq_one_iff.mp one
    have extended := pending_extend within [byte] segments
    refine ih (follows_extend within found).within singleRest ?_ (fun _ => ?_) read
    · rw [extended, dropLast_concat]
      exact none
    · have checked : reader.encoded.length ≤ maxHttpChunkFramingBytes + 1 := by
        by_contra long
        rw [chunkLineRoom_checked (Nat.lt_of_not_le long)] at given
        cases given
      show (reader.encoded ++ [byte]).length ≤ _
      rw [length_append, length_singleton]
      omega
  | _ => simp at read

theorem readHttpChunkLine_tight {reader after : ChunkReader} {line : List UInt8}
    (tight : Tight reader) (read : readHttpChunkLine true reader = .ok (line, after)) :
    Tight after ∧ after.encoded.length ≤ maxHttpChunkFramingBytes + 2 := by
  refine readHttpChunkLine_single (Nat.le_of_eq tight.drained) tight.single ?_ ?_ read
  · rw [tight.pending]
    rfl
  · exact fun filled => absurd tight.pending filled

theorem ensureHttpChunkBytes_single {required : Nat} {reader after : ChunkReader}
    (within : reader.Within) (single : Single reader.segments)
    (short : reader.pending.length ≤ required)
    (read : ensureHttpChunkBytes required reader = .ok after) :
    after.pending.length = required ∧ Single after.segments := by
  fun_induction ensureHttpChunkBytes required reader with
  | case1 reader there =>
    cases ok.inj read
    rw [← pending_length] at there
    exact ⟨by omega, single⟩
  | case2 => simp at read
  | case3 reader missing remaining bytes segments found ih =>
    obtain ⟨one, singleRest⟩ := readSome_single single found
    refine ih (follows_extend within found).within singleRest ?_ read
    rw [pending_extend within, length_append, one]
    rw [← pending_length] at missing
    omega

structure Filled (required : Nat) (reader after : ChunkReader) : Prop where
  ahead : after.ahead = reader.ahead
  follows : reader.Follows after
  position : after.position = reader.position
  counted : after.framingBytes = reader.framingBytes
  there : required ≤ after.pending.length

theorem ensureHttpChunkBytes_ok {required : Nat} {reader after : ChunkReader}
    (within : reader.Within) (read : ensureHttpChunkBytes required reader = .ok after) :
    Filled required reader after := by
  fun_induction ensureHttpChunkBytes required reader with
  | case1 reader there =>
    cases ok.inj read
    exact ⟨rfl, ⟨within, rfl⟩, rfl, rfl, pending_length ▸ there⟩
  | case2 => simp at read
  | case3 reader missing remaining bytes segments found ih =>
    have extended := follows_extend within found
    have rest := ih extended.within read
    exact ⟨rest.ahead.trans (ahead_extend within found), extended.trans rest.follows,
      rest.position, rest.counted, rest.there⟩

theorem ensureHttpChunkBytes_reads {required : Nat} {reader : ChunkReader} (within : reader.Within)
    (enough : required ≤ reader.ahead.length) :
    ∃ after, ensureHttpChunkBytes required reader = .ok after := by
  fun_induction ensureHttpChunkBytes required reader with
  | case1 reader there => exact ⟨_, rfl⟩
  | case2 reader missing remaining empty =>
    have places : 0 < min remaining httpBufferBytes := by
      unfold remaining httpBufferBytes
      omega
    rw [ChunkReader.ahead, readSome_none places empty, append_nil,
      pending_length] at enough
    exact absurd enough missing
  | case3 reader missing remaining bytes segments found ih =>
    exact ih (follows_extend within found).within
      ((ahead_extend within found).symm ▸ enough)

/-- The trailer fields of a chunked body and the blank line after them. -/
inductive ChunkTrailers : List UInt8 → Nat → List UInt8 → Prop
  | blank {stream rest} : takeLine stream = some ([], rest) → ChunkTrailers stream 0 rest
  | field {stream line after rest count} : takeLine stream = some (line, after) → line ≠ [] →
      isHttpTrailer line = true → ChunkTrailers after count rest →
      ChunkTrailers stream (count + 1) rest

/-- A chunked body: the stream, the data of its chunks, and what follows it. -/
inductive ChunkedBody : List UInt8 → List UInt8 → List UInt8 → Prop
  | last {stream line after rest count} : takeLine stream = some (line, after) →
      httpChunkSize line = .ok 0 → ChunkTrailers after count rest → count ≤ maxHttpHeaders →
      ChunkedBody stream [] rest
  | chunk {stream line data after body rest} :
      takeLine stream = some (line, data ++ crlf ++ after) →
      httpChunkSize line = .ok data.length → data ≠ [] → ChunkedBody after body rest →
      ChunkedBody stream (data ++ body) rest

theorem ChunkTrailers.length {stream rest : List UInt8} {count : Nat}
    (trailers : ChunkTrailers stream count rest) : rest.length + 2 ≤ stream.length := by
  induction trailers with
  | blank taken =>
    have := (takeLine_eq taken).2
    omega
  | field taken _ _ _ ih =>
    have := (takeLine_eq taken).2
    omega

theorem ChunkedBody.length {stream body rest : List UInt8} (chunked : ChunkedBody stream body rest) :
    rest.length + body.length + 4 ≤ stream.length := by
  induction chunked with
  | last taken _ trailers _ =>
    have := (takeLine_eq taken).2
    have := trailers.length
    rw [length_nil]
    omega
  | chunk taken _ _ _ ih =>
    have := (takeLine_eq taken).2
    simp only [length_append] at this ⊢
    omega

theorem ChunkTrailers.unique {stream rest other : List UInt8} {count counted : Nat}
    (trailers : ChunkTrailers stream count rest) (again : ChunkTrailers stream counted other) :
    rest = other := by
  induction trailers generalizing counted with
  | blank taken =>
    cases again with
    | blank takenAgain => exact (Prod.mk.inj (Option.some.inj (taken.symm.trans takenAgain))).2
    | field takenAgain filled _ _ =>
      exact absurd (Prod.mk.inj (Option.some.inj (taken.symm.trans takenAgain))).1.symm filled
  | field taken filled _ _ ih =>
    cases again with
    | blank takenAgain =>
      exact absurd (Prod.mk.inj (Option.some.inj (taken.symm.trans takenAgain))).1 filled
    | field takenAgain _ _ more =>
      obtain ⟨-, rfl⟩ := Prod.mk.inj (Option.some.inj (taken.symm.trans takenAgain))
      exact ih more

theorem ChunkedBody.unique {stream body rest again other : List UInt8}
    (chunked : ChunkedBody stream body rest) (twice : ChunkedBody stream again other) :
    body = again ∧ rest = other := by
  induction chunked generalizing again with
  | last taken size trailers _ =>
    cases twice with
    | last takenAgain _ trailersAgain _ =>
      obtain ⟨-, rfl⟩ := Prod.mk.inj (Option.some.inj (taken.symm.trans takenAgain))
      exact ⟨rfl, trailers.unique trailersAgain⟩
    | chunk takenAgain sizeAgain filled _ =>
      obtain ⟨rfl, -⟩ := Prod.mk.inj (Option.some.inj (taken.symm.trans takenAgain))
      have none := ok.inj (size.symm.trans sizeAgain)
      exact absurd (length_eq_zero_iff.mp none.symm) filled
  | @chunk stream line data after body rest taken size filled _ ih =>
    cases twice with
    | last takenAgain sizeAgain _ _ =>
      obtain ⟨rfl, -⟩ := Prod.mk.inj (Option.some.inj (taken.symm.trans takenAgain))
      have none := ok.inj (size.symm.trans sizeAgain)
      exact absurd (length_eq_zero_iff.mp none) filled
    | @chunk _ _ otherData _ _ _ takenAgain sizeAgain _ more =>
      obtain ⟨rfl, split⟩ := Prod.mk.inj (Option.some.inj (taken.symm.trans takenAgain))
      have sameLength := ok.inj (size.symm.trans sizeAgain)
      rw [append_assoc, append_assoc] at split
      obtain ⟨rfl, ends⟩ := append_inj split sameLength
      obtain ⟨rfl, sameRest⟩ := ih ((append_cancel_left ends) ▸ more)
      exact ⟨rfl, sameRest⟩

end PortMate
