import PortMate.IpAddressTexts
import PortMate.McpRequests

namespace PortMate

open List Nat

section Urls

/-- `url::Host`. -/
inductive UrlHost
  | domain (name : List Char)
  | ipv4 (bits : Nat)
  | ipv6 (bits : Nat)
  deriving DecidableEq

def UrlHost.text : UrlHost → List Char
  | domain name => name
  | ipv4 bits => ipv4Text bits
  | ipv6 bits => '[' :: (compressedText bits ++ [']'])

/-- What is read of a parsed URL; the port is its own or the default of its scheme. -/
structure WebUrl where
  scheme : List Char
  username : List Char
  password : Option (List Char)
  host : Option UrlHost
  port : Nat
  path : List Char
  query : Option (List Char)
  fragment : Option (List Char)
  deriving DecidableEq

structure UrlCrate where
  parse : List Char → Option WebUrl
  parseHost : List Char → Option UrlHost

def defaultPort (scheme : List Char) : Option Nat :=
  if scheme = "http".toList then some 80
  else if scheme = "https".toList then some 443
  else none

def isHttpScheme (scheme : List Char) : Bool := scheme = "http".toList || scheme = "https".toList

/-- The text of the origin of a scheme, a host and a port, without the port where it is the default. -/
def originText (scheme : List Char) (host : UrlHost) (port : Nat) : List Char :=
  scheme ++ ("://".toList ++ (host.text ++
    if defaultPort scheme = some port then [] else ':' :: toDigits 10 port))

/-- `origin().ascii_serialization()`; only a URL with a network scheme and a host has an origin. -/
def WebUrl.asciiOrigin (url : WebUrl) : List Char :=
  match url.host with
  | some host => if isHttpScheme url.scheme then originText url.scheme host url.port else "null".toList
  | none => "null".toList

end Urls

section Settings

@[ext]
structure McpHttpSettings where
  listenHost : List Char
  clientHost : List Char
  port : UInt16
  allowedOrigins : List (List Char)
  clientId : String
  trusted : Bool
  allowRemote : Bool
  deriving DecidableEq

def maxMcpHttpOrigins : Nat := 32

def maxMcpHttpOriginBytes : Nat := 512

def maxMcpHttpClientHostBytes : Nat := 253

def IpAddr.isLoopback : IpAddr → Bool
  | v4 bits => bits / 2 ^ 24 = 127
  | v6 bits => bits = 1

def IpAddr.isUnspecified : IpAddr → Bool
  | v4 bits => bits = 0
  | v6 bits => bits = 0

/-- What stands between two brackets, or else the whole text. -/
def stripBrackets (host : List Char) : List Char :=
  match host with
  | '[' :: rest => if rest.getLast? = some ']' then rest.dropLast else host
  | _ => host

def isUnprintable (c : Char) : Bool := isRustControl c || isRustWhitespace c

variable (urls : UrlCrate)

def clientHostText : Option UrlHost → Except String (List Char)
  | none => .error "MCP HTTP client address must be an IPv4, IPv6, or DNS host"
  | some (.domain name) => .ok name
  | some (.ipv4 bits) =>
    if bits = 0 then .error "MCP HTTP client address cannot be an unspecified listener address"
    else .ok (ipv4Text bits)
  | some (.ipv6 bits) =>
    if bits = 0 then .error "MCP HTTP client address cannot be an unspecified listener address"
    else .ok (ipv6Text bits)

def normalizeMcpHttpClientHost (value : List Char) : Except String (List Char) :=
  let value := stripBrackets (trimText value)
  if value.isEmpty || maxMcpHttpClientHostBytes < utf8Length value || value.any isUnprintable then
    .error s!"MCP HTTP client address must be non-empty, contain no whitespace, and not exceed {maxMcpHttpClientHostBytes} bytes"
  else clientHostText (urls.parseHost value)

def normalizeMcpHttpOrigin (origin : List Char) : Except String (List Char) :=
  let origin := trimText origin
  if origin.isEmpty || maxMcpHttpOriginBytes < utf8Length origin || origin.any isUnprintable ||
      origin.contains ',' then
    .error s!"each MCP HTTP Origin must be non-empty, contain no whitespace or commas, and not exceed {maxMcpHttpOriginBytes} bytes"
  else if origin = ['*'] then .ok origin
  else
    match urls.parse origin with
    | none => .error "MCP HTTP Origins must use scheme://host[:port] or *"
    | some parsed =>
      if !isHttpScheme parsed.scheme || parsed.host.isNone || !parsed.username.isEmpty ||
          parsed.password.isSome || !(parsed.path = [] || parsed.path = ['/']) ||
          parsed.query.isSome || parsed.fragment.isSome then
        .error "MCP HTTP Origins must be HTTP(S) origins containing only a scheme and authority"
      else if parsed.asciiOrigin = "null".toList then
        .error "MCP HTTP Origin scheme does not define a network origin"
      else .ok parsed.asciiOrigin

/-- The loop over the origins, with those seen so far. -/
def normalizeMcpHttpOrigins (seen : List (List Char)) :
    List (List Char) → Except String (List (List Char))
  | [] => .ok []
  | origin :: origins => do
    let origin ← normalizeMcpHttpOrigin urls origin
    if seen.contains origin then .error "MCP HTTP allowed Origins must not contain duplicates"
    else do
      let origins ← normalizeMcpHttpOrigins (origin :: seen) origins
      .ok (origin :: origins)

def defaultMcpHttpOrigins (bindIp : IpAddr) (port : UInt16) : List (List Char) :=
  if bindIp.isUnspecified then
    [ "http://127.0.0.1:".toList ++ toDigits 10 port.toNat,
      "http://localhost:".toList ++ toDigits 10 port.toNat ]
  else
    let host :=
      match bindIp with
      | .v4 bits => ipv4Text bits
      | .v6 bits => '[' :: (ipv6Text bits ++ [']'])
    ["http://".toList ++ (host ++ ':' :: toDigits 10 port.toNat)]

def normalizeMcpHttpSettings (request : McpHttpSettings) :
    Except String (McpHttpSettings × IpAddr) :=
  match parseIpAddr (stripBrackets (trimText request.listenHost)) with
  | none => .error "MCP HTTP listen address must be a numeric IPv4 or IPv6 address"
  | some bindIp =>
    if request.port = 0 then .error "MCP HTTP port must be between 1 and 65535"
    else if !bindIp.isLoopback && !request.allowRemote then
      .error "non-loopback MCP HTTP listeners require explicit remote access approval"
    else do
      let clientHost ← normalizeMcpHttpClientHost urls request.clientHost
      let clientId ← normalizeMcpClientId request.clientId
      if maxMcpHttpOrigins < request.allowedOrigins.length then
        .error s!"MCP HTTP Origin limit exceeded ({maxMcpHttpOrigins})"
      else do
        let origins ← normalizeMcpHttpOrigins urls [] request.allowedOrigins
        .ok ({
          listenHost := bindIp.text
          clientHost
          port := request.port
          allowedOrigins :=
            if origins.isEmpty then defaultMcpHttpOrigins bindIp request.port else origins
          clientId
          trusted := false
          allowRemote := !bindIp.isLoopback }, bindIp)

end Settings

section Bridge

/-- The origins that the bridge takes from its environment. -/
def environmentOrigins (value : List Char) (port : UInt16) : List (List Char) :=
  let origins := ((value.splitOn ',').map trimText).filter fun origin => !origin.isEmpty
  if origins.isEmpty then
    [ "http://127.0.0.1:".toList ++ toDigits 10 port.toNat,
      "http://localhost:".toList ++ toDigits 10 port.toNat ]
  else origins

def validateOrigin (origin : Option (List Char)) (allowedOrigins : List (List Char)) :
    Except String Unit :=
  match (origin.map trimText).filter fun origin => !origin.isEmpty with
  | none => .ok ()
  | some origin =>
    if allowedOrigins.any fun allowed => allowed = ['*'] || allowed = origin then .ok ()
    else .error s!"Origin \x60{String.ofList origin}\x60 is not allowed"

/-- The origins of the bridge that is started with the settings. -/
def McpHttpSettings.bridgeOrigins (settings : McpHttpSettings) : List (List Char) :=
  environmentOrigins ([','].intercalate settings.allowedOrigins) settings.port

end Bridge

section Plain

/-- Texts without blanks and control characters, which have no brackets around them. -/
structure PlainText (text : List Char) : Prop where
  filled : text ≠ []
  printable : ∀ c ∈ text, isUnprintable c = false
  bare : text.head? ≠ some '['

theorem trimText_printable {text : List Char} (printable : ∀ c ∈ text, isUnprintable c = false) :
    trimText text = text := by
  have kept : ∀ list : List Char, (∀ c ∈ list, isUnprintable c = false) →
      list.dropWhile isRustWhitespace = list := by
    intro list printable
    cases list with
    | nil => rfl
    | cons c rest =>
      have dark := printable c mem_cons_self
      rw [isUnprintable, Bool.or_eq_false_iff] at dark
      exact dropWhile_cons_of_neg (by simp [dark.2])
  rw [trimText, kept text printable, List.rdropWhile,
    kept text.reverse fun c mem => printable c (mem_reverse.mp mem), reverse_reverse]

theorem stripBrackets_bare {text : List Char} (bare : text.head? ≠ some '[') :
    stripBrackets text = text := by
  unfold stripBrackets
  split
  · exact absurd rfl bare
  · rfl

theorem AddressChar.printable {c : Char} (address : AddressChar c) : isUnprintable c = false := by
  rw [isUnprintable, address.whitespace, address.control]
  rfl

theorem plainText_of_address {text : List Char} (filled : text ≠ [])
    (address : ∀ c ∈ text, AddressChar c) : PlainText text := by
  refine ⟨filled, fun c mem => (address c mem).printable, fun bracket => ?_⟩
  obtain ⟨rest, rfl⟩ := head?_eq_some_iff.mp bracket
  exact (address '[' mem_cons_self).opening rfl

theorem IpAddr.text_plain (address : IpAddr) : PlainText address.text := by
  refine plainText_of_address ?_ fun c mem => IpAddr.text_addressChar mem
  cases address with
  | v4 bits => exact ne_nil_of_mem (dot_mem_ipv4Text bits)
  | v6 bits => exact ne_nil_of_mem (colon_mem_ipv6Text bits)

theorem normalizeMcpClientId_idem {clientId clean : String}
    (ok : normalizeMcpClientId clientId = .ok clean) : normalizeMcpClientId clean = .ok clean := by
  unfold normalizeMcpClientId at ok ⊢
  split at ok
  next valid =>
    obtain rfl := Except.ok.inj ok
    rw [rustTrim_idem, if_pos valid]
  next => cases ok

end Plain

end PortMate
