import PortMate.HttpRequestSegments

namespace PortMate

open List Char Except Or

def headerNames (headers : List (List Char × List UInt8)) : List (List Char) :=
  headers.map fun header => header.1.map toLower

def keysOf (headers : HttpHeaders) : List (List Char) := headers.map Prod.fst

theorem lookup_isSome_keys {headers : HttpHeaders} {name : List Char} :
    (headers.lookup name).isSome = true ↔ name ∈ keysOf headers := by
  rw [List.lookup_isSome_iff, keysOf, mem_map]
  constructor
  · rintro ⟨header, mem, same⟩
    exact ⟨header, mem, (beq_iff_eq.mp same).symm⟩
  · rintro ⟨header, mem, same⟩
    exact ⟨header, mem, beq_iff_eq.mpr same.symm⟩

theorem insertHttpHeader_keys {headers inserted : HttpHeaders} {name value : List Char}
    (insert : insertHttpHeader headers name value = .ok inserted) :
    (isSingleValueHttpHeader (name.map toLower) = true →
        name.map toLower ∉ keysOf headers) ∧
      ∀ key, key ∈ keysOf inserted ↔ key ∈ keysOf headers ∨ key = name.map toLower := by
  unfold insertHttpHeader at insert
  simp only at insert
  split at insert
  next there =>
    have known := lookup_isSome_keys.mp there
    split at insert
    next => cases insert
    next many =>
      cases ok.inj insert
      refine ⟨fun single => absurd single many, fun key => ?_⟩
      have same : ∀ value, keysOf (headers.map (joinHttpHeader (name.map toLower) value)) =
          keysOf headers := by
        intro value
        rw [keysOf, map_map]
        refine map_congr_left fun header _ => ?_
        show (joinHttpHeader _ _ header).1 = header.1
        unfold joinHttpHeader
        split <;> rfl
      rw [same]
      exact ⟨inl, fun mem => mem.elim id (fun here => here ▸ known)⟩
  next fresh =>
    cases ok.inj insert
    refine ⟨fun _ known => fresh (lookup_isSome_keys.mpr known), fun key => ?_⟩
    simp [keysOf]

theorem insertHttpHeaders_keys {headers inserted : HttpHeaders}
    {rest : List (List Char × List UInt8)} (insert : insertHttpHeaders headers rest = .ok inserted) :
    ((headerNames rest).filter isSingleValueHttpHeader).Nodup ∧
      (∀ name ∈ headerNames rest, isSingleValueHttpHeader name = true → name ∉ keysOf headers) ∧
      ∀ name, name ∈ keysOf headers ∨ name ∈ headerNames rest → name ∈ keysOf inserted := by
  induction rest generalizing headers with
  | nil =>
    cases ok.inj insert
    exact ⟨nodup_nil, fun name mem => absurd mem not_mem_nil,
      fun name mem => mem.elim id fun none => absurd none not_mem_nil⟩
  | cons header rest ih =>
    obtain ⟨name, bytes⟩ := header
    unfold insertHttpHeaders at insert
    split at insert
    next => cases insert
    next value _ =>
      split at insert
      next => cases insert
      next next inserting =>
        obtain ⟨once, keys⟩ := insertHttpHeader_keys inserting
        obtain ⟨distinct, fresh, kept⟩ := ih insert
        have names : headerNames ((name, bytes) :: rest) =
            name.map toLower :: headerNames rest := rfl
        rw [names]
        refine ⟨?_, ?_, ?_⟩
        · rw [filter_cons]
          split
          next single =>
            refine nodup_cons.mpr ⟨fun again => ?_, distinct⟩
            have again := (mem_filter.mp again).1
            exact fresh _ again single ((keys _).mpr (inr rfl))
          next => exact distinct
        · intro other mem single known
          rcases mem_cons.mp mem with rfl | mem
          · exact once single known
          · exact fresh other mem single ((keys other).mpr (inl known))
        · intro other mem
          rcases mem with known | mem
          · exact kept other (inl ((keys other).mpr (inl known)))
          · rcases mem_cons.mp mem with rfl | mem
            · exact kept _ (inl ((keys _).mpr (inr rfl)))
            · exact kept other (inr mem)

def RefusedHeaders (headers : List (List Char × List UInt8)) : Prop :=
  ¬ ((headerNames headers).filter isSingleValueHttpHeader).Nodup ∨
    "transfer-encoding".toList ∈ headerNames headers ∧
      "content-length".toList ∈ headerNames headers

theorem HttpRequestIn.headers_accepted {httparse : HttpParser} {bodyLimit : HttpBodyLimit}
    {stream rest : List UInt8} {headerEnd parsedBytes : Nat} {request : HttpRequest}
    {parsed : ParsedHttpHead}
    (whole : HttpRequestIn httparse bodyLimit stream headerEnd request rest)
    (head : httparse (stream.take (headerEnd + 4)) = .ok (some (parsedBytes, parsed))) :
    ¬ RefusedHeaders parsed.headers := by
  have read := whole.head
  unfold parseHttpHead at read
  rw [head] at read
  simp only at read
  split at read
  · cases read
  · split at read
    · cases read
    · cases read
    · cases read
    · split at read
      next => cases read
      next headers inserting =>
        obtain ⟨-, -, rfl⟩ : _ ∧ _ ∧ headers = request.headers := by simpa using read
        obtain ⟨distinct, -, kept⟩ := insertHttpHeaders_keys inserting
        rintro (repeated | ⟨encoding, length⟩)
        · exact repeated distinct
        · have encoded := lookup_isSome_keys.mpr (kept _ (inr encoding))
          have sized := lookup_isSome_keys.mpr (kept _ (inr length))
          obtain ⟨_, _, body⟩ := whole.body
          generalize stream.drop (headerEnd + 4) = encoded at body
          cases body with
          | sized plain =>
            rw [plain] at encoded
            cases encoded
          | chunked _ _ noLength =>
            rw [noLength] at sized
            cases sized

/-- What a read answers is a request at the start of the stream, whatever the cuts. A stream that is
one request gives that request for every cut just where the build does not check for overflow, the
body comes without chunks, or its encoded form is short. Refused headers are refused always. -/
theorem http_request_reads_iff (httparse : HttpParser) (bodyLimit : HttpBodyLimit) :
    (∀ overflowChecks segments request,
      readHttpRequest overflowChecks httparse bodyLimit segments = .ok request →
      ∃ headerEnd rest,
        HttpRequestIn httparse bodyLimit segments.flatten headerEnd request rest) ∧
    (∀ overflowChecks stream headerEnd request,
      HttpRequestIn httparse bodyLimit stream headerEnd request [] →
      (∀ segments other, segments.flatten = stream →
        readHttpRequest overflowChecks httparse bodyLimit segments = .ok other →
        other = request) ∧
      ((∀ segments, segments.flatten = stream →
          readHttpRequest overflowChecks httparse bodyLimit segments = .ok request) ↔
        overflowChecks = false ∨ request.headers.lookup "transfer-encoding".toList = none ∨
          stream.length ≤ headerEnd + 4 + (maxHttpChunkFramingBytes + 2))) ∧
    (∀ overflowChecks segments headerEnd parsedBytes parsed,
      findHeaderEnd segments.flatten = some headerEnd →
      httparse (segments.flatten.take (headerEnd + 4)) = .ok (some (parsedBytes, parsed)) →
      RefusedHeaders parsed.headers →
      ∀ request, readHttpRequest overflowChecks httparse bodyLimit segments ≠ .ok request) := by
  refine ⟨?_, ?_, ?_⟩
  · intro overflowChecks segments request read
    obtain ⟨headerEnd, rest, whole, -⟩ := readHttpRequest_ok read
    exact ⟨headerEnd, rest, whole⟩
  · intro overflowChecks stream headerEnd request whole
    refine ⟨?_, ?_, ?_⟩
    · intro segments other joined read
      subst joined
      obtain ⟨_, _, again, -⟩ := readHttpRequest_ok read
      exact (again.unique whole).1
    · intro always
      cases overflowChecks with
      | false => exact inl rfl
      | true =>
        refine inr (or_iff_not_imp_left.mpr fun encoded => ?_)
        have read := always (singles stream) (flatten_singles stream)
        obtain ⟨again, rest, wholeAgain, near⟩ := readHttpRequest_ok read
        have short := near rfl encoded (single_singles stream)
        rw [flatten_singles] at wholeAgain short
        obtain ⟨-, rfl⟩ := wholeAgain.unique whole
        cases Option.some.inj (wholeAgain.found.symm.trans whole.found)
        simpa using short
    · intro unhindered segments joined
      subst joined
      exact readHttpRequest_reads whole unhindered
  · intro overflowChecks segments headerEnd parsedBytes parsed found head refused request read
    obtain ⟨again, rest, whole, -⟩ := readHttpRequest_ok read
    cases Option.some.inj (whole.found.symm.trans found)
    exact whole.headers_accepted head refused

/-- A parser that finds these headers in every head. -/
def parserOf (headers : List (List Char × List UInt8)) : HttpParser := fun head =>
  .ok (some (head.length, ⟨some "POST".toList, some "/mcp".toList, some 1, headers⟩))

def bytesOf (text : String) : List UInt8 := text.toList.map byteOf

def chunkedHeader : List Char × List UInt8 :=
  ("Transfer-Encoding".toList, bytesOf "chunked")

def lengthHeader : List Char × List UInt8 := ("content-length".toList, bytesOf "5")

def greetingHead : List UInt8 := bytesOf "POST /mcp\r\n\r\n"

def chunkedGreeting : List UInt8 :=
  greetingHead ++ bytesOf "5;x=1\r\nhello\r\n0\r\nX-T: 1\r\n\r\n"

def greeting : HttpRequest where
  method := "POST".toList
  path := "/mcp".toList
  headers := [("transfer-encoding".toList, "chunked".toList)]
  body := bytesOf "hello"

theorem chunkedGreeting_whole :
    HttpRequestIn (parserOf [chunkedHeader]) (fun _ _ _ => .ok 5) chunkedGreeting 9 greeting [] := by
  have fields : ChunkTrailers (bytesOf "X-T: 1\r\n\r\n") 1 [] :=
    .field (show takeLine _ = some (bytesOf "X-T: 1", bytesOf "\r\n") by decide)
      (by decide) (by decide) (.blank (by decide))
  have last : ChunkedBody (bytesOf "0\r\nX-T: 1\r\n\r\n") [] [] :=
    .last (show takeLine _ = some (bytesOf "0", bytesOf "X-T: 1\r\n\r\n") by decide) rfl
      fields (by decide)
  have whole : ChunkedBody (bytesOf "5;x=1\r\nhello\r\n0\r\nX-T: 1\r\n\r\n") (bytesOf "hello" ++ [])
      [] :=
    .chunk (show takeLine _ = some (bytesOf "5;x=1",
        bytesOf "hello" ++ crlf ++ bytesOf "0\r\nX-T: 1\r\n\r\n") by decide) rfl
      (by decide) last
  exact ⟨by decide, by decide, by decide +kernel, 5, rfl,
    .chunked rfl (by decide) rfl whole (by decide) (by decide)⟩

/-- A short chunked request, in one segment and byte by byte, in a build with checks; and a request
with both headers. -/
theorem greeting_read :
    readHttpRequest true (parserOf [chunkedHeader]) (fun _ _ _ => .ok 5) [chunkedGreeting] =
        .ok greeting ∧
      readHttpRequest true (parserOf [chunkedHeader]) (fun _ _ _ => .ok 5)
        (singles chunkedGreeting) = .ok greeting ∧
      ∀ request, readHttpRequest true (parserOf [chunkedHeader, lengthHeader])
        (fun _ _ _ => .ok 5) [chunkedGreeting] ≠ .ok request := by
  have always := ((http_request_reads_iff (parserOf [chunkedHeader]) fun _ _ _ => .ok 5).2.1 true
    chunkedGreeting 9 greeting chunkedGreeting_whole).2.mpr (inr (inr (by decide)))
  refine ⟨always _ (append_nil _), always _ (flatten_singles _), ?_⟩
  exact (http_request_reads_iff (parserOf [chunkedHeader, lengthHeader])
    fun _ _ _ => .ok 5).2.2 true [chunkedGreeting] 9 13 _ (by decide) rfl
      (inr (by decide))

end PortMate
