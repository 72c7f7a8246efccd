import PortMate.IpAddresses

namespace PortMate

def maxTunnelHostCharacters : Nat := 255
def maxTunnelRouteRules : Nat := 64

structure TunnelRouteRule where
  host : List Char
  port : Option Nat
  deriving DecidableEq

/-- The networks of another library: how they are read, and the text of the network itself. -/
structure IpNetworks (ν : Type) where
  parse : List Char → Option ν
  truncText : ν → List Char

def toAsciiLower (c : Char) : Char :=
  if 'A' ≤ c && c ≤ 'Z' then Char.ofNat (c.toNat + 32) else c

/-- `trim().trim_end_matches('.').to_ascii_lowercase()`. -/
def routeText (value : List Char) : List Char :=
  (((value.dropWhile isRustWhitespace).rdropWhile isRustWhitespace).rdropWhile (· = '.')).map
    toAsciiLower

/-- The characters in their order, each counted before it is looked at. -/
def validateCharacters (label : String) (maxCharacters : Nat) (rejectWhitespace : Bool) :
    Nat → List Char → Except String Unit
  | _, [] => .ok ()
  | count, c :: rest =>
    if maxCharacters < count + 1 then
      .error s!"{label} exceeds {maxCharacters} Unicode characters"
    else if isRustControl c then .error s!"{label} must not contain control characters"
    else if rejectWhitespace && isRustWhitespace c then
      .error s!"{label} must not contain whitespace"
    else validateCharacters label maxCharacters rejectWhitespace (count + 1) rest

def validateText (label : String) (value : List Char) (maxCharacters : Nat)
    (allowEmpty rejectWhitespace : Bool) : Except String Unit :=
  if (value.dropWhile isRustWhitespace).rdropWhile isRustWhitespace ≠ value then
    .error s!"{label} must not have surrounding whitespace"
  else if !allowEmpty && value.isEmpty then .error s!"{label} must not be empty"
  else validateCharacters label maxCharacters rejectWhitespace 0 value

def validateHost (label : String) (value : List Char) (allowEmpty : Bool) : Except String Unit :=
  validateText label value maxTunnelHostCharacters allowEmpty true

def validDnsName (value : List Char) : Bool :=
  !(value.isEmpty || 253 < byteLength (String.ofList value) || value.head? = some '.' ||
      value.getLast? = some '.') &&
    (value.splitOn '.').all fun label =>
      !label.isEmpty && label.length ≤ 63 && label.head? ≠ some '-' && label.getLast? ≠ some '-' &&
        label.all fun c => c.isAlphanum || c = '-'

section Routes

variable {ν : Type} (networks : IpNetworks ν)

def normalizedRouteHost (value : List Char) : List Char :=
  let value := routeText value
  match networks.parse value with
  | some network => networks.truncText network
  | none =>
    match parseIpAddr value with
    | some address => address.text
    | none => value

def normalizeTunnelRouteRules (rules : List TunnelRouteRule) : List TunnelRouteRule :=
  rules.map fun rule =>
    if rule.host.any isRustControl then rule
    else { rule with host := normalizedRouteHost networks rule.host }

def wildcardSuffix? (host : List Char) : Option (List Char) :=
  match host with
  | '*' :: '.' :: suffix => some suffix
  | _ => none

def validateRouteRule (rule : TunnelRouteRule) : Except String Unit := do
  validateHost "host" rule.host false
  if normalizedRouteHost networks rule.host ≠ rule.host then
    throw "host must be normalized without surrounding whitespace or a trailing dot"
  if rule.port = some 0 then throw "port must be between 1 and 65535"
  match wildcardSuffix? rule.host with
  | some suffix =>
    if !validDnsName suffix then throw "wildcard host must be a valid *.example.com suffix"
  | none =>
    if '/' ∈ rule.host then
      match networks.parse rule.host with
      | none => throw "CIDR host must be a valid IPv4 or IPv6 network"
      | some network =>
        if networks.truncText network ≠ rule.host then
          throw "CIDR host must use its canonical network address"
    else if !((parseIpAddr rule.host).isSome || validDnsName rule.host) then
      throw "host must be a domain, wildcard domain, IP address, or CIDR"

def validateRulesFrom (seen : List (List Char × Option Nat)) (index : Nat) :
    List TunnelRouteRule → Except String Unit
  | [] => .ok ()
  | rule :: rules => do
    (validateRouteRule networks rule).mapError fun error => s!"route rule {index + 1}: {error}"
    if (rule.host, rule.port) ∈ seen then throw s!"route rule {index + 1}: duplicate rule"
    validateRulesFrom ((rule.host, rule.port) :: seen) (index + 1) rules

def validateTunnelRouteRules (rules : List TunnelRouteRule) : Except String Unit :=
  if maxTunnelRouteRules < rules.length then
    .error s!"route rule count exceeds {maxTunnelRouteRules}"
  else validateRulesFrom networks [] 0 rules

end Routes

end PortMate
