import PortMate.HttpChunkReads

namespace PortMate

open List Except

/-- What read trailers say: all that was read is framing. -/
structure TrailersRead (reader after : ChunkReader) (count : Nat) : Prop where
  trailers : ChunkTrailers reader.ahead count after.ahead
  follows : reader.Follows after
  counted : after.framingBytes + after.ahead.length = reader.framingBytes + reader.ahead.length
  limit : after.framingBytes ≤ maxHttpChunkFramingBytes

theorem readHttpChunkTrailers_ok {overflowChecks : Bool} {before : Nat}
    {reader after : ChunkReader} (within : reader.Within) (counted : before ≤ maxHttpHeaders)
    (read : readHttpChunkTrailers overflowChecks before reader = .ok after) :
    ∃ count, before + count ≤ maxHttpHeaders ∧ TrailersRead reader after count := by
  fun_induction readHttpChunkTrailers overflowChecks before reader with
  | case1 => simp at read
  | case2 before reader line next readLine empty =>
    cases ok.inj read
    have first := readHttpChunkLine_ok within readLine
    have blank := List.isEmpty_iff.mp empty
    subst blank
    have lengths := (takeLine_eq first.taken).2
    have framing := first.counted
    refine ⟨0, counted, .blank first.taken, first.follows, ?_, first.limit⟩
    omega
  | case3 => simp at read
  | case4 => simp at read
  | case5 before reader line next readLine filled room valid ih =>
    have first := readHttpChunkLine_ok within readLine
    obtain ⟨count, fits, rest⟩ := ih first.follows.within (by omega) read
    have lengths := (takeLine_eq first.taken).2
    have framing := first.counted
    have restFraming := rest.counted
    refine ⟨count + 1, by omega, .field first.taken ?_ (by simpa using valid) rest.trailers,
      first.follows.trans rest.follows, by omega, rest.limit⟩
    exact fun none => filled (List.isEmpty_iff.mpr none)

theorem readHttpChunkTrailers_tight {before : Nat} {reader after : ChunkReader}
    (tight : Tight reader) (read : readHttpChunkTrailers true before reader = .ok after) :
    Tight after ∧ after.encoded.length ≤ maxHttpChunkFramingBytes + 2 := by
  fun_induction readHttpChunkTrailers true before reader with
  | case2 before reader line next readLine empty =>
    cases ok.inj read
    exact readHttpChunkLine_tight tight readLine
  | case5 before reader line next readLine filled room valid ih =>
    exact ih (readHttpChunkLine_tight tight readLine).1 read
  | _ => cases read

theorem readHttpChunkTrailers_reads {overflowChecks : Bool} {before count : Nat}
    {reader : ChunkReader} {rest : List UInt8} (within : reader.Within)
    (trailers : ChunkTrailers reader.ahead count rest) (fits : before + count ≤ maxHttpHeaders)
    (limit : reader.framingBytes + reader.ahead.length ≤ maxHttpChunkFramingBytes + rest.length)
    (unhindered : overflowChecks = false ∨ reader.total ≤ maxHttpChunkFramingBytes + 2) :
    ∃ after, readHttpChunkTrailers overflowChecks before reader = .ok after ∧
      after.ahead = rest := by
  generalize stream : reader.ahead = ahead at trailers
  induction trailers generalizing reader before with
  | @blank _ rest taken =>
    subst stream
    have lengths := (takeLine_eq taken).2
    rw [length_nil] at lengths
    obtain ⟨after, read⟩ := readHttpChunkLine_reads within taken
      (by rw [length_nil]; omega) unhindered
    have first := readHttpChunkLine_ok within read
    refine ⟨after, ?_, ?_⟩
    · rw [readHttpChunkTrailers, read]
      rfl
    · exact (Prod.mk.inj (Option.some.inj (first.taken.symm.trans taken))).2
  | @field _ line following rest count taken filled valid more ih =>
    subst stream
    have lengths := (takeLine_eq taken).2
    have moreLength := more.length
    obtain ⟨after, read⟩ := readHttpChunkLine_reads within taken (by omega) unhindered
    have first := readHttpChunkLine_ok within read
    obtain ⟨-, sameRest⟩ := Prod.mk.inj (Option.some.inj (first.taken.symm.trans taken))
    have framing := first.counted
    obtain ⟨last, readMore, ends⟩ := @ih (before + 1) after first.follows.within (by omega)
      (by rw [sameRest]; omega) (first.follows.total ▸ unhindered) sameRest
    refine ⟨last, ?_, ends⟩
    rw [readHttpChunkTrailers, read]
    have notEmpty : line.isEmpty = false := isEmpty_eq_false_iff.mpr filled
    simp only [notEmpty, valid, Bool.false_eq_true, Bool.not_true, if_false]
    rw [if_neg (by omega)]
    exact readMore

/-- A filled reader past the data of a chunk and the line end behind it. -/
def ChunkReader.pastChunk (reader : ChunkReader) (size : Nat) : ChunkReader :=
  { reader with
    position := reader.position + size + 2
    framingBytes := reader.framingBytes + 2 }

open ChunkReader

theorem ahead_chunk {reader : ChunkReader} {size : Nat} (there : size + 2 ≤ reader.pending.length)
    (ends : (reader.pending.drop size).take 2 = crlf) :
    reader.ahead = reader.pending.take size ++ crlf ++ (reader.pastChunk size).ahead := by
  have skipped : (reader.pastChunk size).ahead = reader.ahead.drop (size + 2) :=
    ahead_skip there
  have start : reader.ahead.take (size + 2) = reader.pending.take size ++ crlf := by
    rw [ChunkReader.ahead, take_append_of_le_length there, take_add, ends]
  rw [skipped, ← start, take_append_drop]

theorem follows_pastChunk {reader : ChunkReader} {size : Nat} (within : reader.Within)
    (there : size + 2 ≤ reader.pending.length) : reader.Follows (reader.pastChunk size) := by
  rw [pending_length] at there
  unfold ChunkReader.Within at within
  refine ⟨?_, rfl⟩
  show reader.position + size + 2 ≤ reader.encoded.length
  omega

theorem tight_pastChunk {reader : ChunkReader} {size : Nat} (single : Single reader.segments)
    (there : reader.pending.length = size + 2) : Tight (reader.pastChunk size) := by
  rw [pending_length] at there
  refine ⟨?_, single⟩
  show reader.position + size + 2 = reader.encoded.length
  omega

/-- A body that is read stands in the stream and keeps the limits; byte by byte, a build with checks
reads it near the start of the buffer only. -/
theorem readHttpChunks_ok {overflowChecks : Bool} {maxBodyBytes : Nat}
    {body result : List UInt8} {reader : ChunkReader} (within : reader.Within)
    (small : body.length ≤ maxBodyBytes)
    (read : readHttpChunks overflowChecks maxBodyBytes body reader = .ok result) :
    ∃ decoded rest, result = body ++ decoded ∧ ChunkedBody reader.ahead decoded rest ∧
      result.length ≤ maxBodyBytes ∧ reader.framingBytes + reader.ahead.length ≤
        maxHttpChunkFramingBytes + decoded.length + rest.length ∧
      (overflowChecks = true → Tight reader →
        reader.total ≤ rest.length + (maxHttpChunkFramingBytes + 2)) := by
  fun_induction readHttpChunks overflowChecks maxBodyBytes body reader with
  | case6 body reader line afterLine readLine last readTrailers done size fits =>
    cases ok.inj read
    have first := readHttpChunkLine_ok within readLine
    obtain ⟨count, bound, trailers⟩ := readHttpChunkTrailers_ok first.follows.within
      (Nat.zero_le _) readTrailers
    have lengths := (takeLine_eq first.taken).2
    have framing := first.counted
    have restFraming := trailers.counted
    have limit := trailers.limit
    refine ⟨[], last.ahead, (append_nil _).symm,
      .last first.taken size trailers.trailers (by omega), small, ?_, ?_⟩
    · rw [length_nil]
      omega
    · intro checked tight
      subst checked
      have lastTight := readHttpChunkTrailers_tight (readHttpChunkLine_tight tight readLine).1
        readTrailers
      have counted := ahead_length trailers.follows.within
      have total := (first.follows.trans trailers.follows).total
      have drained := lastTight.1.drained
      have near := lastTight.2
      omega
  | case10 body reader line afterLine readLine size sized fits notLast filled readData ends limit ih =>
    have first := readHttpChunkLine_ok within readLine
    have data := ensureHttpChunkBytes_ok first.follows.within readData
    have split := ahead_chunk data.there (by simpa using ends)
    have dataLength : (filled.pending.take size).length = size := by
      have := data.there
      rw [length_take]
      omega
    have past := follows_pastChunk data.follows.within data.there
    obtain ⟨decoded, rest, joined, chunked, bound, framed, near⟩ := ih past.within
      (by rw [length_append, dataLength]; omega) read
    refine ⟨filled.pending.take size ++ decoded, rest, ?_, ?_, bound, ?_, ?_⟩
    · rw [joined, append_assoc]
    · refine .chunk ?_ (?_ : httpChunkSize line = _) ?_ chunked
      · rw [first.taken, ← data.ahead, split]
        rfl
      · rw [sized, dataLength]
      · intro none
        rw [none] at dataLength
        exact notLast dataLength.symm
    · have lengths := (takeLine_eq first.taken).2
      have lineFraming := first.counted
      have dataFraming := data.counted
      have aheadLength := congrArg List.length split
      have framed : filled.framingBytes + 2 + (filled.pastChunk size).ahead.length ≤ _ := framed
      rw [data.ahead] at aheadLength
      simp only [length_append, dataLength] at aheadLength ⊢
      have : crlf.length = 2 := rfl
      omega
    · intro checked tight
      subst checked
      have lineTight := (readHttpChunkLine_tight tight readLine).1
      have dataSingle := ensureHttpChunkBytes_single first.follows.within lineTight.single
        (by rw [lineTight.pending]; exact Nat.zero_le _) readData
      have total := (first.follows.trans (data.follows.trans past)).total
      rw [← total]
      exact near rfl (tight_pastChunk dataSingle.2 dataSingle.1)
  | _ => cases read

theorem readHttpChunks_last {overflowChecks : Bool} {maxBodyBytes : Nat} {body line : List UInt8}
    {reader afterLine last : ChunkReader}
    (readLine : readHttpChunkLine overflowChecks reader = .ok (line, afterLine))
    (sized : httpChunkSize line = .ok 0)
    (readTrailers : readHttpChunkTrailers overflowChecks 0 afterLine = .ok last)
    (done : last.position = last.encoded.length) :
    readHttpChunks overflowChecks maxBodyBytes body reader = .ok body := by
  rw [readHttpChunks]
  split
  next error failed => cases readLine.symm.trans failed
  next lineAgain next again =>
    obtain ⟨rfl, rfl⟩ := Prod.mk.inj (ok.inj (readLine.symm.trans again))
    simp only [sized, Nat.not_lt_zero, if_false, if_true, readTrailers]
    rw [if_neg (not_not_intro done)]

theorem readHttpChunks_chunk {overflowChecks : Bool} {maxBodyBytes size : Nat}
    {body line : List UInt8} {reader afterLine filled : ChunkReader}
    (readLine : readHttpChunkLine overflowChecks reader = .ok (line, afterLine))
    (sized : httpChunkSize line = .ok size) (small : size ≤ maxBodyBytes - body.length)
    (notLast : size ≠ 0) (readData : ensureHttpChunkBytes (size + 2) afterLine = .ok filled)
    (ends : (filled.pending.drop size).take 2 = crlf)
    (limit : filled.framingBytes + 2 ≤ maxHttpChunkFramingBytes) :
    readHttpChunks overflowChecks maxBodyBytes body reader =
      readHttpChunks overflowChecks maxBodyBytes (body ++ filled.pending.take size)
        (filled.pastChunk size) := by
  rw [readHttpChunks]
  split
  next error failed => cases readLine.symm.trans failed
  next lineAgain next again =>
    obtain ⟨rfl, rfl⟩ := Prod.mk.inj (ok.inj (readLine.symm.trans again))
    simp only [sized]
    rw [if_neg (Nat.not_lt_of_le small), if_neg notLast]
    split
    next error failed => cases readData.symm.trans failed
    next filledAgain again =>
      cases ok.inj (readData.symm.trans again)
      rw [if_neg (not_not_intro ends), dif_neg (Nat.not_lt_of_le limit)]
      rfl

theorem readHttpChunks_reads {overflowChecks : Bool} {maxBodyBytes : Nat}
    {body decoded : List UInt8} {reader : ChunkReader} (within : reader.Within)
    (chunked : ChunkedBody reader.ahead decoded [])
    (small : body.length + decoded.length ≤ maxBodyBytes)
    (limit : reader.framingBytes + reader.ahead.length ≤
      maxHttpChunkFramingBytes + decoded.length)
    (unhindered : overflowChecks = false ∨ reader.total ≤ maxHttpChunkFramingBytes + 2) :
    readHttpChunks overflowChecks maxBodyBytes body reader = .ok (body ++ decoded) := by
  generalize stream : reader.ahead = ahead at chunked
  generalize nothing : ([] : List UInt8) = rest at chunked
  induction chunked generalizing reader body with
  | @last _ line after rest count taken size trailers fits =>
    subst stream
    rw [length_nil] at limit
    have lengths := (takeLine_eq taken).2
    obtain ⟨afterLine, read⟩ := readHttpChunkLine_reads within taken
      (by have := trailers.length; omega) unhindered
    have first := readHttpChunkLine_ok within read
    obtain ⟨-, same⟩ := Prod.mk.inj (Option.some.inj (first.taken.symm.trans taken))
    have framing := first.counted
    obtain ⟨last, readTrailers, ends⟩ := readHttpChunkTrailers_reads
      first.follows.within (same ▸ trailers) (show 0 + count ≤ _ by omega) (by rw [same]; omega)
      (first.follows.total ▸ unhindered)
    obtain ⟨_, _, trailersRead⟩ := readHttpChunkTrailers_ok first.follows.within
      (Nat.zero_le _) readTrailers
    have done : last.position = last.encoded.length := by
      have empty : last.pending.length = 0 := by
        rw [← nothing, ChunkReader.ahead, append_eq_nil_iff] at ends
        rw [ends.1, length_nil]
      have inside := trailersRead.follows.within
      rw [pending_length] at empty
      unfold ChunkReader.Within at inside
      omega
    rw [readHttpChunks_last read size readTrailers done, append_nil]
  | @chunk _ line data after decoded rest taken size filled more ih =>
    subst stream
    rw [length_append] at small limit
    have lengths := (takeLine_eq taken).2
    have crlfLength : crlf.length = 2 := rfl
    have moreLength := more.length
    simp only [length_append, crlfLength] at lengths
    obtain ⟨afterLine, read⟩ := readHttpChunkLine_reads within taken (by omega) unhindered
    have first := readHttpChunkLine_ok within read
    obtain ⟨-, same⟩ := Prod.mk.inj (Option.some.inj (first.taken.symm.trans taken))
    have framing := first.counted
    have enough : data.length + 2 ≤ afterLine.ahead.length := by
      rw [same]
      simp only [length_append, crlfLength]
      omega
    obtain ⟨filledReader, readData⟩ := ensureHttpChunkBytes_reads first.follows.within enough
    have there := ensureHttpChunkBytes_ok first.follows.within readData
    -- What is pending begins with the data and its line end.
    have start : filledReader.pending.take (data.length + 2) = data ++ crlf := by
      have whole := there.ahead.trans same
      have known : filledReader.ahead.take (data.length + 2) =
          filledReader.pending.take (data.length + 2) :=
        take_append_of_le_length there.there
      rw [← known, whole]
      exact take_left' (by rw [length_append, crlfLength])
    rw [take_add] at start
    obtain ⟨taken, ends⟩ := append_inj start
      (by rw [length_take]; have := there.there; omega)
    have past := follows_pastChunk there.follows.within there.there
    have pastAhead : (filledReader.pastChunk data.length).ahead = after := by
      have split := ahead_chunk there.there ends
      rw [there.ahead, same, taken] at split
      exact (append_cancel_left split).symm
    have framingData := there.counted
    have limited : (filledReader.pastChunk data.length).framingBytes +
        (filledReader.pastChunk data.length).ahead.length ≤
          maxHttpChunkFramingBytes + decoded.length := by
      rw [pastAhead]
      show filledReader.framingBytes + 2 + after.length ≤ _
      omega
    have onward := @ih (body ++ data) _ past.within
      (by rw [length_append]; omega) limited
      ((past.total.trans (there.follows.total.trans first.follows.total)) ▸ unhindered)
      pastAhead nothing
    have some : data.length ≠ 0 := fun none => filled (length_eq_zero_iff.mp none)
    rw [readHttpChunks_chunk read size (by omega) some readData ends (by omega), taken,
      ← append_assoc]
    exact onward

end PortMate
