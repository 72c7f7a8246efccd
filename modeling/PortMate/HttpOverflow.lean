import PortMate.HttpSegmentation

namespace PortMate

open List ChunkReader

theorem readSome_segment {room : Nat} {bytes : List UInt8} {segments : List (List UInt8)}
    (filled : bytes ≠ []) (places : room ≠ 0) :
    readSome room (bytes :: segments) = some (bytes.take room, bytes.drop room :: segments) := by
  cases bytes with
  | nil => exact absurd rfl filled
  | cons byte bytes => rw [readSome, if_neg places]

theorem readHttpChunkLine_pending {overflowChecks : Bool} {reader : ChunkReader} {lineEnd : Nat}
    (found : findPattern crlf reader.pending = some lineEnd)
    (limit : reader.framingBytes + (lineEnd + 2) ≤ maxHttpChunkFramingBytes) :
    readHttpChunkLine overflowChecks reader =
      .ok (reader.pending.take lineEnd, reader.advance (lineEnd + 2)) := by
  rw [readHttpChunkLine]
  split
  next again here =>
    cases Option.some.inj (found.symm.trans here)
    rw [if_neg (Nat.not_lt_of_le limit)]
  next none => cases found.symm.trans none

theorem readHttpChunkLine_segment {overflowChecks : Bool} {encoded bytes : List UInt8}
    {framing lineEnd : Nat} {segments : List (List UInt8)} (short : bytes.length ≤ httpBufferBytes)
    (near : encoded.length ≤ maxHttpChunkFramingBytes + 1)
    (found : findPattern crlf bytes = some lineEnd)
    (limit : framing + (lineEnd + 2) ≤ maxHttpChunkFramingBytes) :
    readHttpChunkLine overflowChecks ⟨encoded, encoded.length, framing, [] :: bytes :: segments⟩ =
      .ok (bytes.take lineEnd, ⟨encoded ++ bytes, encoded.length + (lineEnd + 2),
        framing + (lineEnd + 2), [] :: segments⟩) := by
  have pending : (⟨encoded, encoded.length, framing, [] :: bytes :: segments⟩ :
      ChunkReader).pending = [] := drop_length
  have extended : (⟨encoded ++ bytes, encoded.length, framing, [] :: segments⟩ :
      ChunkReader).pending = bytes := drop_left
  have filled : bytes ≠ [] := by
    intro none
    rw [none] at found
    cases found
  rw [readHttpChunkLine]
  split
  next again here =>
    rw [pending] at here
    cases here
  next none =>
    have room : chunkLineRoom overflowChecks
        ⟨encoded, encoded.length, framing, [] :: bytes :: segments⟩ =
          .ok (maxHttpChunkFramingBytes + 1 - (encoded.length - encoded.length)) :=
      chunkLineRoom_eq (Nat.le_refl _) (by rw [Nat.sub_self]; decide) (Or.inr near)
    have read : readSome (min (maxHttpChunkFramingBytes + 1 - (encoded.length - encoded.length))
        httpBufferBytes) ([] :: bytes :: segments) = some (bytes, [] :: segments) := by
      have places : min (maxHttpChunkFramingBytes + 1) httpBufferBytes = httpBufferBytes := by decide
      rw [Nat.sub_self, Nat.sub_zero, places, readSome, readSome_segment filled (by decide),
        take_of_length_le short, drop_of_length_le short]
    rw [if_neg (by rw [Nat.sub_self]; decide)]
    split
    next error given => cases room.symm.trans given
    next places given =>
      cases Except.ok.inj (room.symm.trans given)
      split
      next empty => cases read.symm.trans empty
      next found _ taken =>
        obtain ⟨rfl, rfl⟩ := Prod.mk.inj (Option.some.inj (read.symm.trans taken))
        have there : findPattern crlf (⟨encoded ++ bytes, encoded.length, framing, [] :: segments⟩ :
            ChunkReader).pending = some lineEnd := by rw [extended, found]
        refine (readHttpChunkLine_pending there limit).trans ?_
        rw [extended]
        rfl

theorem ensureHttpChunkBytes_segment {required : Nat} {reader : ChunkReader} {bytes : List UInt8}
    {segments : List (List UInt8)} (within : reader.Within)
    (next : reader.segments = bytes :: segments)
    (exact : reader.pending.length + bytes.length = required) :
    ensureHttpChunkBytes required reader =
      .ok { reader with encoded := reader.encoded ++ bytes, segments := [] :: segments } := by
  fun_induction ensureHttpChunkBytes required reader generalizing bytes with
  | case1 reader there =>
    rw [← pending_length] at there
    have empty : bytes = [] := length_eq_zero_iff.mp (by omega)
    rw [empty, append_nil, ← empty, ← next]
  | case2 reader missing remaining =>
    rename_i none
    rw [← pending_length] at missing
    have filled : bytes ≠ [] := ne_nil_of_length_pos (by omega)
    have places : min (required - (reader.encoded.length - reader.position))
        httpBufferBytes ≠ 0 := by
      rw [← pending_length, httpBufferBytes]
      omega
    rw [next, readSome_segment filled places] at none
    cases none
  | case3 reader missing remaining found more read =>
    rename_i ih
    rw [← pending_length] at missing
    have filled : bytes ≠ [] := ne_nil_of_length_pos (by omega)
    have places : min (required - (reader.encoded.length - reader.position))
        httpBufferBytes ≠ 0 := by
      rw [← pending_length, httpBufferBytes]
      omega
    have extended := follows_extend within read
    have longer := pending_extend within found more
    rw [next, readSome_segment filled places] at read
    obtain ⟨rfl, rfl⟩ := Prod.mk.inj (Option.some.inj read)
    have rest := ih extended.within rfl (by
      rw [longer, length_append, Nat.add_assoc, ← length_append, take_append_drop]
      exact exact)
    rw [rest]
    simp [extend, append_assoc]

theorem ensureHttpChunkBytes_next {required position framing : Nat} {encoded : List UInt8}
    {segments : List (List UInt8)} (missing : encoded.length - position < required) :
    ensureHttpChunkBytes required ⟨encoded, position, framing, [] :: segments⟩ =
      ensureHttpChunkBytes required ⟨encoded, position, framing, segments⟩ := by
  rw [ensureHttpChunkBytes, if_neg (Nat.not_le_of_lt missing)]
  conv => rhs; rw [ensureHttpChunkBytes, if_neg (Nat.not_le_of_lt missing)]
  rfl

theorem readHttpHeaderEnd_segment {bytes : List UInt8} {segments : List (List UInt8)} {index : Nat}
    (short : bytes.length ≤ httpBufferBytes) (found : findHeaderEnd bytes = some index)
    (limit : index + 4 ≤ maxHttpHeaderBytes) :
    readHttpHeaderEnd [] (bytes :: segments) = .ok (index, bytes, [] :: segments) := by
  have filled : bytes ≠ [] := by
    intro none
    rw [none] at found
    cases found
  have read : readSome httpBufferBytes (bytes :: segments) = some (bytes, [] :: segments) := by
    rw [readSome_segment filled (by decide), take_of_length_le short,
      drop_of_length_le short]
  rw [readHttpHeaderEnd]
  split
  next none => cases read.symm.trans none
  next taken rest again =>
    obtain ⟨rfl, rfl⟩ := Prod.mk.inj (Option.some.inj (read.symm.trans again))
    simp only [nil_append, found]
    rw [if_neg (Nat.not_lt_of_le limit)]

theorem takeLine_append {line stream : List UInt8} (rest : List UInt8)
    (found : findPattern crlf stream = some line.length) (ends : stream = line ++ crlf) :
    takeLine (stream ++ rest) = some (line, rest) := by
  rw [takeLine, findPattern_append rest found, Option.map_some, ends, append_assoc,
    take_left, ← append_assoc, drop_left' (by rw [length_append]; rfl)]

def largeSize : List UInt8 := bytesOf "fff8\r\n"

def largeEnd : List UInt8 := bytesOf "0\r\n\r\n"

/-- A body of one chunk, whose last line ends just past the place up to which a build with checks
reads lines. -/
def largeBody (data : List UInt8) : List UInt8 := largeSize ++ (data ++ crlf ++ largeEnd)

def largeStream (data : List UInt8) : List UInt8 := greetingHead ++ largeBody data

def largeRequest (data : List UInt8) : HttpRequest where
  method := "POST".toList
  path := "/mcp".toList
  headers := [("transfer-encoding".toList, "chunked".toList)]
  body := data

def largeSegments (data : List UInt8) : List (List UInt8) :=
  [greetingHead, largeSize, data ++ crlf, largeEnd]

theorem largeSegments_flatten (data : List UInt8) :
    (largeSegments data).flatten = largeStream data := by
  simp [largeSegments, largeStream, largeBody]

theorem largeSize_length : largeSize.length = 6 := by decide

section Large

variable {data : List UInt8} (length : data.length = 65528)

include length

theorem largeBody_length : (largeBody data).length = 65541 := by
  have ends : largeEnd.length = 5 := by decide
  have line : crlf.length = 2 := rfl
  rw [largeBody, length_append, length_append, length_append, length,
    largeSize_length, ends, line]

theorem largeBody_chunked : ChunkedBody (largeBody data) data [] := by
  have last : ChunkedBody largeEnd [] [] :=
    .last (show takeLine _ = some (bytesOf "0", crlf) by decide) rfl
      (.blank (by decide)) (Nat.zero_le _)
  have first : takeLine (largeBody data) = some (bytesOf "fff8", data ++ crlf ++ largeEnd) :=
    takeLine_append _ (by decide) (by decide)
  have size : httpChunkSize (bytesOf "fff8") = .ok data.length := by
    rw [length]
    decide
  have filled : data ≠ [] := ne_nil_of_length_pos (by omega)
  have whole := ChunkedBody.chunk first size filled last
  rwa [append_nil] at whole

theorem largeStream_whole :
    HttpRequestIn (parserOf [chunkedHeader]) (fun _ _ _ => .ok 70000) (largeStream data) 9
      (largeRequest data) [] := by
  have head : (largeStream data).take (9 + 4) = greetingHead := take_left' (by decide)
  have rest : (largeStream data).drop (9 + 4) = largeBody data :=
    drop_left' (by decide)
  have body : (largeRequest data).body.length = 65528 := length
  refine ⟨findPattern_append _ (by decide), by decide, ?_, 70000, rfl, ?_⟩
  · rw [head]
    show _ = Except.ok ("POST".toList, "/mcp".toList,
      [("transfer-encoding".toList, "chunked".toList)])
    decide +kernel
  · rw [rest]
    refine .chunked rfl (by decide) rfl (largeBody_chunked length) ?_ ?_
    · rw [body]
      decide
    · rw [largeBody_length length, body]
      decide

omit length in
theorem largeEnd_read {encoded body : List UInt8} {maxBodyBytes : Nat}
    (near : encoded.length ≤ maxHttpChunkFramingBytes + 1) :
    readHttpChunks true maxBodyBytes body ⟨encoded, encoded.length, 8, [[], largeEnd]⟩ =
      .ok body := by
  have line := @readHttpChunkLine_segment true encoded largeEnd 8 1 [] (by decide) near
    (by decide) (by decide)
  have pending : (⟨encoded ++ largeEnd, encoded.length + 3, 11, [[]]⟩ : ChunkReader).pending =
      crlf := drop_length_add_append 3
  have blank : readHttpChunkLine true ⟨encoded ++ largeEnd, encoded.length + 3, 11, [[]]⟩ =
      .ok ([], ⟨encoded ++ largeEnd, encoded.length + 5, 13, [[]]⟩) := by
    have found : findPattern crlf (⟨encoded ++ largeEnd, encoded.length + 3, 11, [[]]⟩ :
        ChunkReader).pending = some 0 := by rw [pending]; rfl
    refine (readHttpChunkLine_pending found (show 11 + (0 + 2) ≤ _ by decide)).trans ?_
    rw [pending]
    rfl
  have trailers : readHttpChunkTrailers true 0 ⟨encoded ++ largeEnd, encoded.length + 3, 11, [[]]⟩ =
      .ok ⟨encoded ++ largeEnd, encoded.length + 5, 13, [[]]⟩ := by
    rw [readHttpChunkTrailers, blank]
    rfl
  have done : encoded.length + 5 = (encoded ++ largeEnd).length := by
    rw [length_append]
    rfl
  exact readHttpChunks_last line rfl trailers done

theorem largeChunk_read :
    ensureHttpChunkBytes (65528 + 2) ⟨largeSize, 6, 6, [[], data ++ crlf, largeEnd]⟩ =
      .ok ⟨largeSize ++ (data ++ crlf), 6, 6, [[], largeEnd]⟩ := by
  have missing : largeSize.length - 6 < 65528 + 2 := by
    rw [largeSize_length]
    decide
  have line : crlf.length = 2 := rfl
  refine (ensureHttpChunkBytes_next missing).trans ?_
  refine ensureHttpChunkBytes_segment (Nat.le_of_eq largeSize_length.symm) rfl ?_
  rw [pending_length, length_append, length, largeSize_length, line]
  exact Nat.zero_add _

theorem largeChunks_read :
    readHttpChunks true 70000 [] ⟨[], 0, 0, [[], largeSize, data ++ crlf, largeEnd]⟩ =
      .ok data := by
  have sizeLine : readHttpChunkLine true ⟨[], 0, 0, [[], largeSize, data ++ crlf, largeEnd]⟩ =
      .ok (bytesOf "fff8", ⟨largeSize, 6, 6, [[], data ++ crlf, largeEnd]⟩) :=
    @readHttpChunkLine_segment true [] largeSize 0 4 [data ++ crlf, largeEnd]
      (by decide) (by decide) (by decide) (by decide)
  have pending : (⟨largeSize ++ (data ++ crlf), 6, 6, [[], largeEnd]⟩ : ChunkReader).pending =
      data ++ crlf := drop_left' largeSize_length
  have line : crlf.length = 2 := rfl
  have filledLength : (largeSize ++ (data ++ crlf)).length = 65536 := by
    rw [length_append, length_append, length, largeSize_length, line]
  have ends : ((⟨largeSize ++ (data ++ crlf), 6, 6, [[], largeEnd]⟩ :
      ChunkReader).pending.drop 65528).take 2 = crlf := by
    rw [pending, drop_left' length]
    rfl
  have sized : httpChunkSize (bytesOf "fff8") = .ok 65528 := by decide
  have near : (largeSize ++ (data ++ crlf)).length ≤ maxHttpChunkFramingBytes + 1 := by
    rw [filledLength]
    decide
  have last := @largeEnd_read _ data 70000 near
  rw [filledLength] at last
  rw [readHttpChunks_chunk sizeLine sized (by decide) (by decide) (largeChunk_read length) ends
    (show 6 + 2 ≤ _ by decide), pending, take_left' length, nil_append]
  have past : (⟨largeSize ++ (data ++ crlf), 6, 6, [[], largeEnd]⟩ : ChunkReader).pastChunk 65528 =
      ⟨largeSize ++ (data ++ crlf), 65536, 8, [[], largeEnd]⟩ := by
    have place : 6 + 65528 + 2 = 65536 := by decide
    rw [pastChunk, place]
  rw [past]
  exact last

theorem largeSegments_read :
    readHttpRequest true (parserOf [chunkedHeader]) (fun _ _ _ => .ok 70000) (largeSegments data) =
      .ok (largeRequest data) := by
  have head : readHttpHeaderEnd [] (largeSegments data) =
      .ok (9, greetingHead, [[], largeSize, data ++ crlf, largeEnd]) :=
    readHttpHeaderEnd_segment (by decide) (by decide) (by decide)
  have parsed : parseHttpHead (parserOf [chunkedHeader]) (greetingHead.take (9 + 4)) =
      .ok ("POST".toList, "/mcp".toList, [("transfer-encoding".toList, "chunked".toList)]) := by
    decide +kernel
  have nothing : greetingHead.drop (9 + 4) = [] := by decide
  have limit : min 70000 maxHttpBodyBytes = 70000 := by decide
  have declared : readHttpBody true [("transfer-encoding".toList, "chunked".toList)] [] 70000
      [[], largeSize, data ++ crlf, largeEnd] = .ok data := by
    unfold readHttpBody readHttpChunkedBody
    simp only [largeChunks_read length]
    rfl
  unfold readHttpRequest
  simp only [head, parsed, nothing, limit, declared]
  rfl

theorem largeStream_singles :
    readHttpRequest true (parserOf [chunkedHeader]) (fun _ _ _ => .ok 70000)
      (singles (largeStream data)) ≠ .ok (largeRequest data) := by
  intro read
  obtain ⟨headerEnd, rest, whole, near⟩ := readHttpRequest_ok read
  rw [flatten_singles] at whole near
  have large := largeStream_whole length
  obtain ⟨-, rfl⟩ := whole.unique large
  cases Option.some.inj (whole.found.symm.trans large.found)
  have encoded : (largeRequest data).headers.lookup "transfer-encoding".toList ≠ none := by
    show [("transfer-encoding".toList, "chunked".toList)].lookup "transfer-encoding".toList ≠ none
    decide
  have short := near rfl encoded (single_singles _)
  have head : greetingHead.length = 13 := by decide
  rw [largeStream, length_append, largeBody_length length, head, length_nil,
    maxHttpChunkFramingBytes] at short
  omega

end Large

/-- One valid request: read in four segments, refused byte by byte where the build checks for
overflow. -/
theorem large_request_refused :
    HttpRequestIn (parserOf [chunkedHeader]) (fun _ _ _ => .ok 70000)
        (largeStream (List.replicate 65528 0)) 9 (largeRequest (List.replicate 65528 0)) [] ∧
      (largeSegments (List.replicate 65528 0)).flatten = largeStream (List.replicate 65528 0) ∧
      readHttpRequest true (parserOf [chunkedHeader]) (fun _ _ _ => .ok 70000)
        (largeSegments (List.replicate 65528 0)) = .ok (largeRequest (List.replicate 65528 0)) ∧
      (singles (largeStream (List.replicate 65528 0))).flatten =
        largeStream (List.replicate 65528 0) ∧
      readHttpRequest true (parserOf [chunkedHeader]) (fun _ _ _ => .ok 70000)
        (singles (largeStream (List.replicate 65528 0))) ≠
          .ok (largeRequest (List.replicate 65528 0)) :=
  ⟨largeStream_whole length_replicate, largeSegments_flatten _,
    largeSegments_read length_replicate, flatten_singles _,
    largeStream_singles length_replicate⟩

end PortMate
