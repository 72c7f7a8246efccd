import PortMate.SegmentedReads
import PortMate.Utf8Reading

namespace PortMate

open Char

def maxHttpBodyBytes : Nat := 6 * 1024 * 1024
def maxHttpHeaderBytes : Nat := 64 * 1024
def maxHttpChunkFramingBytes : Nat := 64 * 1024
def maxHttpHeaders : Nat := 128

/-- The length of the buffer that every read fills. -/
def httpBufferBytes : Nat := 4096

abbrev HttpHeaders := List (List Char × List Char)

structure HttpRequest where
  method : List Char
  path : List Char
  headers : HttpHeaders
  body : List UInt8
  deriving DecidableEq

/-- What the header parser, which is another library, finds in the bytes of a head. -/
structure ParsedHttpHead where
  method : Option (List Char)
  path : Option (List Char)
  version : Option Nat
  headers : List (List Char × List UInt8)

/-- The parser answers an error, "incomplete", or how many bytes it read and what they say. -/
abbrev HttpParser := List UInt8 → Except String (Option (Nat × ParsedHttpHead))

abbrev HttpBodyLimit := List Char → List Char → HttpHeaders → Except String Nat

def crlf : List UInt8 := [13, 10]

def findHeaderEnd (raw : List UInt8) : Option Nat := findPattern (crlf ++ crlf) raw

def isAsciiControl (byte : UInt8) : Bool := byte < 32 || byte = 127

def isHttpTokenByte (byte : UInt8) : Bool :=
  isAsciiAlphanumeric byte || ("!#$%&'*+-.^_`|~".toList.map byteOf).contains byte

def singleValueHttpHeaders : List (List Char) :=
  ["authorization".toList, "content-length".toList, "content-type".toList, "host".toList,
    "mcp-protocol-version".toList, "origin".toList, "transfer-encoding".toList,
    "x-portmate-mcp-token".toList]

def isSingleValueHttpHeader (name : List Char) : Bool := singleValueHttpHeaders.contains name

/-- A header that comes again is appended to what its name already has. -/
def joinHttpHeader (name value : List Char) (header : List Char × List Char) :
    List Char × List Char :=
  if header.1 = name then (header.1, header.2 ++ ", ".toList ++ value) else header

def insertHttpHeader (headers : HttpHeaders) (name value : List Char) :
    Except String HttpHeaders :=
  let name := name.map toLower
  let value := (value.dropWhile isRustWhitespace).rdropWhile isRustWhitespace
  if (headers.lookup name).isSome then
    if isSingleValueHttpHeader name then .error s!"duplicate HTTP header `{String.ofList name}`"
    else .ok (headers.map (joinHttpHeader name value))
  else .ok (headers ++ [(name, value)])

def insertHttpHeaders (headers : HttpHeaders) :
    List (List Char × List UInt8) → Except String HttpHeaders
  | [] => .ok headers
  | (name, bytes) :: rest =>
    match fromUtf8 bytes with
    | none => .error s!"HTTP header `{String.ofList name}` is not valid UTF-8"
    | some value =>
      match insertHttpHeader headers name value with
      | .error error => .error error
      | .ok headers => insertHttpHeaders headers rest

/-- The method, the path and the headers of a head, which ends with the blank line. -/
def parseHttpHead (httparse : HttpParser) (head : List UInt8) :
    Except String (List Char × List Char × HttpHeaders) :=
  match httparse head with
  | .error error => .error s!"invalid HTTP headers: {error}"
  | .ok none => .error "incomplete HTTP headers"
  | .ok (some (parsedBytes, parsed)) =>
    if parsedBytes ≠ head.length then .error "invalid bytes after HTTP headers"
    else
      match parsed.method, parsed.path, parsed.version with
      | none, _, _ => .error "missing HTTP method"
      | some _, none, _ => .error "missing HTTP path"
      | some _, some _, none => .error "missing HTTP version"
      | some method, some path, some _ =>
        match insertHttpHeaders [] parsed.headers with
        | .error error => .error error
        | .ok headers => .ok (method, path, headers)

/-- Reads until the blank line is there: where it begins, the bytes read and what is still to come. -/
def readHttpHeaderEnd (raw : List UInt8) (segments : List (List UInt8)) :
    Except String (Nat × List UInt8 × List (List UInt8)) :=
  match _read : readSome httpBufferBytes segments with
  | none => .error "connection closed before HTTP headers"
  | some (bytes, segments) =>
    let raw := raw ++ bytes
    match findHeaderEnd raw with
    | some index =>
      if maxHttpHeaderBytes < index + 4 then .error "HTTP headers exceed the 64 KiB limit"
      else .ok (index, raw, segments)
    | none =>
      if maxHttpHeaderBytes < raw.length then .error "HTTP headers exceed the 64 KiB limit"
      else readHttpHeaderEnd raw segments
termination_by segments.flatten.length
decreasing_by exact readSome_shorter _read

/-- The loop of `read_http_content_length_body`. -/
def readHttpBytes (contentLength : Nat) (body : List UInt8) (segments : List (List UInt8)) :
    Except String (List UInt8) :=
  if contentLength ≤ body.length then .ok body
  else
    match _read : readSome (min (contentLength - body.length) httpBufferBytes) segments with
    | none => .error "connection closed before HTTP body"
    | some (bytes, segments) => readHttpBytes contentLength (body ++ bytes) segments
termination_by segments.flatten.length
decreasing_by exact readSome_shorter _read

def readHttpContentLengthBody (initialBody : List UInt8) (contentLength maxBodyBytes : Nat)
    (segments : List (List UInt8)) : Except String (List UInt8) :=
  if maxBodyBytes < contentLength then .error "HTTP body is too large"
  else if contentLength < initialBody.length then
    .error "HTTP request contains bytes after its declared body"
  else readHttpBytes contentLength initialBody segments

/-- A subtraction of `usize`: below zero it stops the program where the build checks for overflow, and
wraps around where it does not. -/
def usizeSub (overflowChecks : Bool) (a b : Nat) : Except String Nat :=
  if b ≤ a then .ok (a - b)
  else if overflowChecks then .error "attempt to subtract with overflow"
  else .ok ((a + (2 ^ 64 - b % 2 ^ 64)) % 2 ^ 64)

def usizeAdd (overflowChecks : Bool) (a b : Nat) : Except String Nat :=
  if a + b < 2 ^ 64 then .ok (a + b)
  else if overflowChecks then .error "attempt to add with overflow"
  else .ok ((a + b) % 2 ^ 64)

/-- The buffer of the chunk reader and its place in it, with the framing counted so far. -/
structure ChunkReader where
  encoded : List UInt8
  position : Nat
  framingBytes : Nat
  segments : List (List UInt8)

namespace ChunkReader

def pending (reader : ChunkReader) : List UInt8 := reader.encoded.drop reader.position

def extend (reader : ChunkReader) (bytes : List UInt8) (segments : List (List UInt8)) :
    ChunkReader :=
  { reader with encoded := reader.encoded ++ bytes, segments }

/-- Past `length` bytes of framing. -/
def advance (reader : ChunkReader) (length : Nat) : ChunkReader :=
  { reader with
    position := reader.position + length
    framingBytes := reader.framingBytes + length }

end ChunkReader

/-- `MAX_HTTP_CHUNK_FRAMING_BYTES + 1 - encoded.len() + *position`, from left to right. -/
def chunkLineRoom (overflowChecks : Bool) (reader : ChunkReader) : Except String Nat :=
  match usizeSub overflowChecks (maxHttpChunkFramingBytes + 1) reader.encoded.length with
  | .error error => .error error
  | .ok room => usizeAdd overflowChecks room reader.position

def readHttpChunkLine (overflowChecks : Bool) (reader : ChunkReader) :
    Except String (List UInt8 × ChunkReader) :=
  match findPattern crlf reader.pending with
  | some lineEnd =>
    if maxHttpChunkFramingBytes < reader.framingBytes + (lineEnd + 2) then
      .error "HTTP chunk framing exceeds the 64 KiB limit"
    else .ok (reader.pending.take lineEnd, reader.advance (lineEnd + 2))
  | none =>
    if maxHttpChunkFramingBytes ≤ reader.encoded.length - reader.position then
      .error "HTTP chunk framing exceeds the 64 KiB limit"
    else
      match chunkLineRoom overflowChecks reader with
      | .error error => .error error
      | .ok room =>
        match _read : readSome (min room httpBufferBytes) reader.segments with
        | none => .error "connection closed before HTTP chunk framing"
        | some (bytes, segments) => readHttpChunkLine overflowChecks (reader.extend bytes segments)
termination_by reader.segments.flatten.length
decreasing_by exact readSome_shorter _read

def ensureHttpChunkBytes (required : Nat) (reader : ChunkReader) : Except String ChunkReader :=
  if required ≤ reader.encoded.length - reader.position then .ok reader
  else
    let remaining := required - (reader.encoded.length - reader.position)
    match _read : readSome (min remaining httpBufferBytes) reader.segments with
    | none => .error "connection closed before HTTP chunk data"
    | some (bytes, segments) => ensureHttpChunkBytes required (reader.extend bytes segments)
termination_by reader.segments.flatten.length
decreasing_by exact readSome_shorter _read

def isHttpTrailer (line : List UInt8) : Bool :=
  match line.dropWhile (· ≠ byteOf ':') with
  | [] => false
  | _ :: value =>
    let name := line.takeWhile (· ≠ byteOf ':')
    !name.isEmpty && name.all isHttpTokenByte &&
      !isSingleValueHttpHeader (name.map fun byte => (ofNat byte.toNat).toLower) &&
      value.all fun byte => byte = byteOf '\t' || !isAsciiControl byte

def readHttpChunkTrailers (overflowChecks : Bool) (trailerCount : Nat) (reader : ChunkReader) :
    Except String ChunkReader :=
  match readHttpChunkLine overflowChecks reader with
  | .error error => .error error
  | .ok (line, reader) =>
    if line.isEmpty then .ok reader
    else if maxHttpHeaders < trailerCount + 1 then
      .error "HTTP chunk trailers exceed the 128-field limit"
    else if !isHttpTrailer line then .error "invalid HTTP chunk trailer"
    else readHttpChunkTrailers overflowChecks (trailerCount + 1) reader
termination_by maxHttpHeaders - trailerCount

/-- `usize::from_str_radix` on hexadecimal digits. -/
def usizeFromHex (digits : List UInt8) : Option Nat := do
  let digits ← digits.mapM fun byte => hexDigit? (ofNat byte.toNat)
  let value := digits.foldl (fun value digit => value * 16 + digit) 0
  if value < 2 ^ 64 then some value else none

/-- The size that a chunk line gives, which may carry an extension. -/
def httpChunkSize (line : List UInt8) : Except String Nat :=
  let sizeBytes := line.takeWhile (· ≠ byteOf ';')
  let extension := line.dropWhile (· ≠ byteOf ';')
  if sizeBytes.isEmpty || !sizeBytes.all fun byte => (hexDigit? (ofNat byte.toNat)).isSome then
    .error "invalid HTTP chunk size"
  else if !extension.isEmpty && (extension.tail.isEmpty ||
      extension.tail.any fun byte => 128 ≤ byte || isAsciiControl byte) then
    .error "invalid HTTP chunk extension"
  else
    match usizeFromHex sizeBytes with
    | none => .error "invalid HTTP chunk size"
    | some size => .ok size

theorem readHttpChunkLine_framing {overflowChecks : Bool} {reader after : ChunkReader}
    {line : List UInt8} (read : readHttpChunkLine overflowChecks reader = .ok (line, after)) :
    reader.framingBytes ≤ after.framingBytes := by
  fun_induction readHttpChunkLine overflowChecks reader with
  | case2 =>
    obtain ⟨rfl, rfl⟩ := Prod.mk.inj (Except.ok.inj read)
    exact Nat.le_add_right _ _
  | case6 reader _ _ _ _ _ _ _ ih => exact ih read
  | _ => simp at read

theorem ensureHttpChunkBytes_framing {required : Nat} {reader after : ChunkReader}
    (read : ensureHttpChunkBytes required reader = .ok after) :
    after.framingBytes = reader.framingBytes := by
  fun_induction ensureHttpChunkBytes required reader with
  | case1 => cases Except.ok.inj read; rfl
  | case2 => simp at read
  | case3 _ _ _ _ _ _ ih => exact ih read

/-- The loop of `read_http_chunked_body`. -/
def readHttpChunks (overflowChecks : Bool) (maxBodyBytes : Nat) (body : List UInt8)
    (reader : ChunkReader) : Except String (List UInt8) :=
  match _line : readHttpChunkLine overflowChecks reader with
  | .error error => .error error
  | .ok (line, afterLine) =>
    match httpChunkSize line with
    | .error error => .error error
    | .ok size =>
      if maxBodyBytes - body.length < size then .error "HTTP body is too large"
      else if size = 0 then
        match readHttpChunkTrailers overflowChecks 0 afterLine with
        | .error error => .error error
        | .ok reader =>
          if reader.position ≠ reader.encoded.length then
            .error "HTTP request contains bytes after its chunked body"
          else .ok body
      else
        match _data : ensureHttpChunkBytes (size + 2) afterLine with
        | .error error => .error error
        | .ok filled =>
          if (filled.pending.drop size).take 2 ≠ crlf then
            .error "HTTP chunk data is not terminated by CRLF"
          else if _limit : maxHttpChunkFramingBytes < filled.framingBytes + 2 then
            .error "HTTP chunk framing exceeds the 64 KiB limit"
          else
            readHttpChunks overflowChecks maxBodyBytes (body ++ filled.pending.take size)
              { filled with
                position := filled.position + size + 2
                framingBytes := filled.framingBytes + 2 }
termination_by maxHttpChunkFramingBytes - reader.framingBytes
decreasing_by
  have counted := readHttpChunkLine_framing _line
  have kept := ensureHttpChunkBytes_framing _data
  omega

def readHttpChunkedBody (overflowChecks : Bool) (initialBody : List UInt8) (maxBodyBytes : Nat)
    (segments : List (List UInt8)) : Except String (List UInt8) :=
  readHttpChunks overflowChecks maxBodyBytes [] ⟨initialBody, 0, 0, segments⟩

def readHttpBody (overflowChecks : Bool) (headers : HttpHeaders) (initialBody : List UInt8)
    (maxBodyBytes : Nat) (segments : List (List UInt8)) : Except String (List UInt8) :=
  match headers.lookup "transfer-encoding".toList with
  | some transferEncoding =>
    if (headers.lookup "content-length".toList).isSome then
      .error "HTTP request cannot combine Transfer-Encoding and Content-Length"
    else if transferEncoding.map toLower ≠ "chunked".toList then
      .error "unsupported Transfer-Encoding; only chunked is accepted"
    else readHttpChunkedBody overflowChecks initialBody maxBodyBytes segments
  | none =>
    match headers.lookup "content-length".toList with
    | none => readHttpContentLengthBody initialBody 0 maxBodyBytes segments
    | some value =>
      match parseUsize value with
      | none => .error "invalid Content-Length"
      | some contentLength =>
        readHttpContentLengthBody initialBody contentLength maxBodyBytes segments

/-- `read_http_request_with_timeout_and_body_limit`. -/
def readHttpRequest (overflowChecks : Bool) (httparse : HttpParser) (bodyLimit : HttpBodyLimit)
    (segments : List (List UInt8)) : Except String HttpRequest :=
  match readHttpHeaderEnd [] segments with
  | .error error => .error error
  | .ok (headerEnd, raw, segments) =>
    let bodyStart := headerEnd + 4
    match parseHttpHead httparse (raw.take bodyStart) with
    | .error error => .error error
    | .ok (method, path, headers) =>
      match bodyLimit method path headers with
      | .error error => .error error
      | .ok limit =>
        match readHttpBody overflowChecks headers (raw.drop bodyStart) (min limit maxHttpBodyBytes)
            segments with
        | .error error => .error error
        | .ok body => .ok ⟨method, path, headers, body⟩

end PortMate
