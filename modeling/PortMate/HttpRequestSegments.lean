import PortMate.HttpRequestReads

namespace PortMate

open List Except

structure HeadRead (stream : List UInt8) (headerEnd : Nat) (raw : List UInt8)
    (segments : List (List UInt8)) : Prop where
  joined : raw ++ segments.flatten = stream
  found : findHeaderEnd raw = some headerEnd
  limit : headerEnd + 4 ≤ maxHttpHeaderBytes

theorem readHttpHeaderEnd_ok {raw after : List UInt8} {segments rest : List (List UInt8)}
    {headerEnd : Nat} (read : readHttpHeaderEnd raw segments = .ok (headerEnd, after, rest)) :
    HeadRead (raw ++ segments.flatten) headerEnd after rest := by
  fun_induction readHttpHeaderEnd raw segments with
  | case3 raw segments bytes more found grown index here limit =>
    obtain ⟨rfl, rfl, rfl⟩ : index = headerEnd ∧ grown = after ∧ more = rest := by
      simpa using read
    refine ⟨?_, here, Nat.le_of_not_lt limit⟩
    rw [append_assoc, readSome_flatten found]
  | case5 raw segments bytes more found grown none limit ih =>
    have rest := ih read
    rwa [append_assoc, readSome_flatten found] at rest
  | _ => cases read

theorem readHttpHeaderEnd_reads {raw : List UInt8} {segments : List (List UInt8)}
    {headerEnd : Nat} (found : findHeaderEnd (raw ++ segments.flatten) = some headerEnd)
    (fresh : findHeaderEnd raw = none) (limit : headerEnd + 4 ≤ maxHttpHeaderBytes) :
    ∃ after rest, readHttpHeaderEnd raw segments = .ok (headerEnd, after, rest) := by
  fun_induction readHttpHeaderEnd raw segments with
  | case1 raw segments empty =>
    rw [readSome_none (by decide) empty, append_nil, fresh] at found
    cases found
  | case2 raw segments bytes more read grown index here exceeds =>
    rw [← readSome_flatten read, ← append_assoc] at found
    cases Option.some.inj ((findPattern_append _ here).symm.trans found)
    omega
  | case3 raw segments bytes more read grown index here fits =>
    rw [← readSome_flatten read, ← append_assoc] at found
    cases Option.some.inj ((findPattern_append _ here).symm.trans found)
    exact ⟨_, _, rfl⟩
  | case4 raw segments bytes more read grown none exceeds =>
    rw [← readSome_flatten read, ← append_assoc] at found
    have here := findPattern_inside (by decide) found
      (show headerEnd + 4 ≤ grown.length by omega)
    cases none.symm.trans here
  | case5 raw segments bytes more read grown none limit ih =>
    rw [← readSome_flatten read, ← append_assoc] at found
    exact ih found none

theorem readHttpHeaderEnd_single {raw after : List UInt8} {segments rest : List (List UInt8)}
    {headerEnd : Nat} (single : Single segments) (fresh : findHeaderEnd raw = none)
    (read : readHttpHeaderEnd raw segments = .ok (headerEnd, after, rest)) :
    after.length = headerEnd + 4 ∧ Single rest := by
  fun_induction readHttpHeaderEnd raw segments with
  | case3 raw segments bytes more found grown index here limit =>
    obtain ⟨rfl, rfl, rfl⟩ : index = headerEnd ∧ grown = after ∧ more = rest := by
      simpa using read
    obtain ⟨one, singleRest⟩ := readSome_single single found
    have fits : index + 4 ≤ (raw ++ bytes).length := findPattern_length here
    refine ⟨?_, singleRest⟩
    by_contra early
    rw [length_append, one] at fits
    have short : (raw ++ bytes).length ≠ index + 4 := early
    rw [length_append, one] at short
    have inside := findPattern_inside (by decide) here
      (show index + 4 ≤ raw.length by omega)
    cases fresh.symm.trans inside
  | case5 raw segments bytes more found grown none limit ih =>
    exact ih (readSome_single single found).2 none read
  | _ => cases read

theorem readHttpBytes_ok {contentLength : Nat} {body result : List UInt8}
    {segments : List (List UInt8)} (short : body.length ≤ contentLength)
    (read : readHttpBytes contentLength body segments = .ok result) :
    result.length = contentLength ∧ result <+: body ++ segments.flatten := by
  fun_induction readHttpBytes contentLength body segments with
  | case1 body segments full =>
    cases ok.inj read
    exact ⟨Nat.le_antisymm short full, prefix_append _ _⟩
  | case2 => cases read
  | case3 body segments missing bytes more found ih =>
    have fits := (readSome_found found).2
    have rest := ih (by rw [length_append]; omega) read
    rwa [append_assoc, readSome_flatten found] at rest

theorem readHttpBytes_reads {contentLength : Nat} {body : List UInt8}
    {segments : List (List UInt8)} (exact : (body ++ segments.flatten).length = contentLength) :
    readHttpBytes contentLength body segments = .ok (body ++ segments.flatten) := by
  fun_induction readHttpBytes contentLength body segments with
  | case1 body segments full =>
    rw [length_append] at exact
    have nothing : segments.flatten = [] := length_eq_zero_iff.mp (by omega)
    rw [nothing, append_nil]
  | case2 body segments missing empty =>
    have places : 0 < min (contentLength - body.length) httpBufferBytes := by
      unfold httpBufferBytes
      omega
    rw [readSome_none places empty, append_nil] at exact
    exact absurd (Nat.le_of_eq exact.symm) missing
  | case3 body segments missing bytes more found ih =>
    have joined : body ++ bytes ++ more.flatten = body ++ segments.flatten := by
      rw [append_assoc, readSome_flatten found]
    rw [← joined] at exact ⊢
    exact ih exact

/-- The length that the headers declare where they do not declare chunks. -/
def declaredLength (headers : HttpHeaders) : Option Nat :=
  match headers.lookup "content-length".toList with
  | none => some 0
  | some value => parseUsize value

/-- The body that the headers declare, within the limits, and what follows it. -/
inductive HttpBody (headers : HttpHeaders) (maxBodyBytes : Nat) :
    List UInt8 → List UInt8 → List UInt8 → Prop
  | sized {body rest : List UInt8} : headers.lookup "transfer-encoding".toList = none →
      declaredLength headers = some body.length → body.length ≤ maxBodyBytes →
      HttpBody headers maxBodyBytes (body ++ rest) body rest
  | chunked {value : List Char} {stream body rest : List UInt8} :
      headers.lookup "transfer-encoding".toList = some value →
      value.map Char.toLower = "chunked".toList →
      headers.lookup "content-length".toList = none → ChunkedBody stream body rest →
      body.length ≤ maxBodyBytes →
      stream.length ≤ maxHttpChunkFramingBytes + body.length + rest.length →
      HttpBody headers maxBodyBytes stream body rest

structure HttpRequestIn (httparse : HttpParser) (bodyLimit : HttpBodyLimit)
    (stream : List UInt8) (headerEnd : Nat) (request : HttpRequest) (rest : List UInt8) :
    Prop where
  found : findHeaderEnd stream = some headerEnd
  limit : headerEnd + 4 ≤ maxHttpHeaderBytes
  head : parseHttpHead httparse (stream.take (headerEnd + 4)) =
    .ok (request.method, request.path, request.headers)
  body : ∃ limit, bodyLimit request.method request.path request.headers = .ok limit ∧
    HttpBody request.headers (min limit maxHttpBodyBytes) (stream.drop (headerEnd + 4))
      request.body rest

theorem HttpBody.unique {headers : HttpHeaders} {maxBodyBytes : Nat}
    {stream body rest again other : List UInt8} (one : HttpBody headers maxBodyBytes stream body rest)
    (two : HttpBody headers maxBodyBytes stream again other) : body = again ∧ rest = other := by
  cases one with
  | sized plain declared _ =>
    generalize joined : body ++ rest = stream at two
    cases two with
    | sized _ declaredAgain _ =>
      exact append_inj joined (Option.some.inj (declared.symm.trans declaredAgain))
    | chunked encoded => cases plain.symm.trans encoded
  | chunked encoded _ _ chunks _ _ =>
    cases two with
    | sized plain => cases plain.symm.trans encoded
    | chunked _ _ _ chunksAgain _ _ => exact chunks.unique chunksAgain

theorem readHttpContentLengthBody_ok {initialBody result : List UInt8}
    {contentLength maxBodyBytes : Nat} {segments : List (List UInt8)}
    (read : readHttpContentLengthBody initialBody contentLength maxBodyBytes segments =
      .ok result) :
    result.length = contentLength ∧ contentLength ≤ maxBodyBytes ∧
      result <+: initialBody ++ segments.flatten := by
  unfold readHttpContentLengthBody at read
  split at read
  next => cases read
  next small =>
    split at read
    next => cases read
    next short =>
      obtain ⟨length, start⟩ := readHttpBytes_ok (Nat.le_of_not_lt short) read
      exact ⟨length, Nat.le_of_not_lt small, start⟩

theorem readHttpBody_ok {overflowChecks : Bool} {headers : HttpHeaders}
    {initialBody body : List UInt8} {maxBodyBytes : Nat} {segments : List (List UInt8)}
    (read : readHttpBody overflowChecks headers initialBody maxBodyBytes segments = .ok body) :
    ∃ rest, HttpBody headers maxBodyBytes (initialBody ++ segments.flatten) body rest ∧
      (overflowChecks = true → headers.lookup "transfer-encoding".toList ≠ none →
        initialBody = [] → Single segments →
          segments.flatten.length ≤ rest.length + (maxHttpChunkFramingBytes + 2)) := by
  unfold readHttpBody at read
  split at read
  next value encoded =>
    split at read
    next => cases read
    next noLength =>
      split at read
      next => cases read
      next chunked =>
        obtain ⟨decoded, rest, rfl, chunks, small, framed, near⟩ :=
          readHttpChunks_ok (show ChunkReader.Within ⟨initialBody, 0, 0, segments⟩ from
            Nat.zero_le _) (Nat.zero_le _) read
        have ahead : (⟨initialBody, 0, 0, segments⟩ : ChunkReader).ahead =
            initialBody ++ segments.flatten := rfl
        rw [ahead] at chunks framed
        refine ⟨rest, .chunked encoded (by simpa using chunked)
          (Option.not_isSome_iff_eq_none.mp noLength) chunks
          small (by simpa using framed), ?_⟩
        intro checked _ empty single
        subst empty
        simpa [ChunkReader.total] using near checked ⟨rfl, single⟩
  next plain =>
    have sized : ∀ contentLength, declaredLength headers = some contentLength →
        readHttpContentLengthBody initialBody contentLength maxBodyBytes segments = .ok body →
        ∃ rest, HttpBody headers maxBodyBytes (initialBody ++ segments.flatten) body rest := by
      intro contentLength declared read
      obtain ⟨length, small, rest, joined⟩ := readHttpContentLengthBody_ok read
      rw [← joined]
      exact ⟨rest, .sized plain (length ▸ declared) (length ▸ small)⟩
    have done : ∃ rest, HttpBody headers maxBodyBytes (initialBody ++ segments.flatten) body rest := by
      split at read
      next absent => exact sized 0 (by rw [declaredLength, absent]) read
      next value given =>
        split at read
        next => cases read
        next contentLength parsed =>
          exact sized contentLength (by rw [declaredLength, given, ← parsed]) read
    obtain ⟨rest, body⟩ := done
    exact ⟨rest, body, fun _ encoded => absurd plain encoded⟩

theorem readHttpBody_reads {overflowChecks : Bool} {headers : HttpHeaders}
    {initialBody body : List UInt8} {maxBodyBytes : Nat} {segments : List (List UInt8)}
    (declared : HttpBody headers maxBodyBytes (initialBody ++ segments.flatten) body [])
    (unhindered : overflowChecks = false ∨ headers.lookup "transfer-encoding".toList = none ∨
      (initialBody ++ segments.flatten).length ≤ maxHttpChunkFramingBytes + 2) :
    readHttpBody overflowChecks headers initialBody maxBodyBytes segments = .ok body := by
  generalize whole : initialBody ++ segments.flatten = stream at declared unhindered
  generalize nothing : ([] : List UInt8) = rest at declared
  cases declared with
  | sized plain length small =>
    subst nothing
    rw [append_nil] at whole
    have total := congrArg List.length whole
    rw [length_append] at total
    have reads : readHttpContentLengthBody initialBody body.length maxBodyBytes segments =
        .ok body := by
      rw [readHttpContentLengthBody, if_neg (Nat.not_lt_of_le small), if_neg (by omega),
        readHttpBytes_reads (congrArg List.length whole), whole]
    unfold readHttpBody
    rw [plain]
    unfold declaredLength at length
    cases given : headers.lookup "content-length".toList with
    | none =>
      simp only [given] at length ⊢
      rw [Option.some.inj length]
      exact reads
    | some value =>
      simp only [given] at length ⊢
      rw [length]
      exact reads
  | chunked encoded isChunked noLength chunks small framed =>
    subst nothing whole
    unfold readHttpBody
    rw [encoded]
    simp only [noLength, Option.isSome_none, Bool.false_eq_true, if_false]
    rw [if_neg (not_not_intro isChunked)]
    have unhindered : overflowChecks = false ∨
        (⟨initialBody, 0, 0, segments⟩ : ChunkReader).total ≤ maxHttpChunkFramingBytes + 2 := by
      rcases unhindered with unchecked | plain | near
      · exact Or.inl unchecked
      · cases plain.symm.trans encoded
      · rw [length_append] at near
        exact Or.inr near
    exact readHttpChunks_reads
      (show ChunkReader.Within ⟨initialBody, 0, 0, segments⟩ from Nat.zero_le _) chunks
      (by simpa using small) (by simpa [ChunkReader.ahead, ChunkReader.pending] using framed) unhindered

section Requests

variable {httparse : HttpParser} {bodyLimit : HttpBodyLimit}

theorem HttpRequestIn.unique {stream rest other : List UInt8} {headerEnd again : Nat}
    {request second : HttpRequest}
    (one : HttpRequestIn httparse bodyLimit stream headerEnd request rest)
    (two : HttpRequestIn httparse bodyLimit stream again second other) :
    request = second ∧ rest = other := by
  cases Option.some.inj (one.found.symm.trans two.found)
  have heads := ok.inj (one.head.symm.trans two.head)
  obtain ⟨method, path, headers⟩ : request.method = second.method ∧
      request.path = second.path ∧ request.headers = second.headers := by simpa using heads
  obtain ⟨limit, given, body⟩ := one.body
  obtain ⟨limitAgain, givenAgain, bodyAgain⟩ := two.body
  rw [← method, ← path, ← headers] at givenAgain
  cases ok.inj (given.symm.trans givenAgain)
  rw [← headers] at bodyAgain
  obtain ⟨sameBody, sameRest⟩ := body.unique bodyAgain
  refine ⟨?_, sameRest⟩
  cases request
  cases second
  simp only [HttpRequest.mk.injEq]
  exact ⟨method, path, headers, sameBody⟩

theorem readHttpRequest_ok {overflowChecks : Bool} {segments : List (List UInt8)}
    {request : HttpRequest}
    (read : readHttpRequest overflowChecks httparse bodyLimit segments = .ok request) :
    ∃ headerEnd rest,
      HttpRequestIn httparse bodyLimit segments.flatten headerEnd request rest ∧
      (overflowChecks = true → request.headers.lookup "transfer-encoding".toList ≠ none →
        Single segments →
          segments.flatten.length ≤
            headerEnd + 4 + rest.length + (maxHttpChunkFramingBytes + 2)) := by
  unfold readHttpRequest at read
  split at read
  next => cases read
  next headerEnd raw after readHead =>
    have head := readHttpHeaderEnd_ok readHead
    rw [nil_append] at head
    have fits : headerEnd + 4 ≤ raw.length := findPattern_length head.found
    simp only at read
    split at read
    next => cases read
    next method path headers parsed =>
      split at read
      next => cases read
      next limit given =>
        split at read
        next => cases read
        next body readBody =>
          cases ok.inj read
          obtain ⟨rest, body, near⟩ := readHttpBody_ok readBody
          have taken : segments.flatten.take (headerEnd + 4) = raw.take (headerEnd + 4) := by
            rw [← head.joined, take_append_of_le_length fits]
          have dropped : segments.flatten.drop (headerEnd + 4) =
              raw.drop (headerEnd + 4) ++ after.flatten := by
            rw [← head.joined, drop_append_of_le_length fits]
          refine ⟨headerEnd, rest, ⟨?_, head.limit, ?_, limit, given, ?_⟩, ?_⟩
          · rw [← head.joined]
            exact findPattern_append _ head.found
          · rw [taken]
            exact parsed
          · rw [dropped]
            exact body
          · intro checked encoded single
            obtain ⟨length, singleRest⟩ := readHttpHeaderEnd_single single rfl readHead
            have small := near checked encoded (drop_eq_nil_of_le (Nat.le_of_eq length))
              singleRest
            have total := congrArg List.length head.joined
            rw [length_append] at total
            omega

theorem readHttpRequest_reads {overflowChecks : Bool} {segments : List (List UInt8)}
    {headerEnd : Nat} {request : HttpRequest}
    (whole : HttpRequestIn httparse bodyLimit segments.flatten headerEnd request [])
    (unhindered : overflowChecks = false ∨
      request.headers.lookup "transfer-encoding".toList = none ∨
        segments.flatten.length ≤ headerEnd + 4 + (maxHttpChunkFramingBytes + 2)) :
    readHttpRequest overflowChecks httparse bodyLimit segments = .ok request := by
  obtain ⟨raw, after, readHead⟩ :=
    @readHttpHeaderEnd_reads [] segments headerEnd whole.found rfl whole.limit
  have head := readHttpHeaderEnd_ok readHead
  rw [nil_append] at head
  have fits : headerEnd + 4 ≤ raw.length := findPattern_length head.found
  obtain ⟨limit, given, body⟩ := whole.body
  have parsed := whole.head
  rw [← head.joined, take_append_of_le_length fits] at parsed
  rw [← head.joined, drop_append_of_le_length fits] at body
  have bodyUnhindered : overflowChecks = false ∨
      request.headers.lookup "transfer-encoding".toList = none ∨
        (raw.drop (headerEnd + 4) ++ after.flatten).length ≤ maxHttpChunkFramingBytes + 2 := by
    refine unhindered.imp_right (Or.imp_right fun small => ?_)
    rw [← head.joined, length_append] at small
    rw [length_append, length_drop]
    omega
  have readBody := readHttpBody_reads body bodyUnhindered
  unfold readHttpRequest
  simp only [readHead, parsed, given, readBody]

end Requests

end PortMate
