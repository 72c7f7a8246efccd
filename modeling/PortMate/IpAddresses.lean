import PortMate.RustText

namespace PortMate

/-- An address as its number, of 32 or of 128 bits. -/
inductive IpAddr
  | v4 (bits : Nat)
  | v6 (bits : Nat)
  deriving DecidableEq

def decimalDigit? (c : Char) : Option Nat :=
  if '0' ≤ c && c ≤ '9' then some (c.toNat - '0'.toNat) else none

/-- A number of `u8` in decimal digits, without a leading zero. -/
def readOctet (text : List Char) : Option Nat := do
  let digits ← text.mapM decimalDigit?
  if digits.isEmpty || 3 < digits.length || (1 < digits.length && digits.head? = some 0) then none
  else
    let value := digits.foldl (fun value digit => value * 10 + digit) 0
    if value ≤ 255 then some value else none

/-- `Ipv4Addr::from_str`. -/
def parseIpv4 (text : List Char) : Option Nat :=
  match (text.splitOn '.').mapM readOctet with
  | some [a, b, c, d] => some (((a * 256 + b) * 256 + c) * 256 + d)
  | _ => none

def readGroup (text : List Char) : Option Nat := do
  let digits ← text.mapM hexDigit?
  if digits.isEmpty || 4 < digits.length then none
  else some (digits.foldl (fun value digit => value * 16 + digit) 0)

/-- Groups between colons; an IPv4 address may stand for the last two. -/
def readGroups : List (List Char) → Option (List Nat)
  | [] => some []
  | [last] =>
    match readGroup last with
    | some group => some [group]
    | none => (parseIpv4 last).map fun bits => [bits / 65536, bits % 65536]
  | text :: rest => do return (← readGroup text) :: (← readGroups rest)

/-- The parts before and after the first double colon. -/
def splitDoubleColon : List Char → Option (List Char × List Char)
  | ':' :: ':' :: rest => some ([], rest)
  | c :: rest => (splitDoubleColon rest).map fun (front, rest) => (c :: front, rest)
  | [] => none

def groupsIn (text : List Char) : List (List Char) :=
  if text.isEmpty then [] else text.splitOn ':'

def groupsValue (groups : List Nat) : Nat :=
  groups.foldl (fun value group => value * 65536 + group) 0

/-- `Ipv6Addr::from_str`. -/
def parseIpv6 (text : List Char) : Option Nat :=
  match splitDoubleColon text with
  | none => do
    let groups ← readGroups (text.splitOn ':')
    if groups.length = 8 then some (groupsValue groups) else none
  | some (front, back) => do
    let head ← (groupsIn front).mapM readGroup
    let tail ← readGroups (groupsIn back)
    if head.length + tail.length ≤ 7 then
      some (groupsValue (head ++ (List.replicate (8 - head.length - tail.length) 0 ++ tail)))
    else none

/-- `IpAddr::from_str`. -/
def parseIpAddr (text : List Char) : Option IpAddr :=
  match parseIpv4 text with
  | some bits => some (.v4 bits)
  | none => (parseIpv6 text).map .v6

def ipv4Text (bits : Nat) : List Char :=
  ['.'].intercalate
    ([bits / 2 ^ 24 % 256, bits / 2 ^ 16 % 256, bits / 2 ^ 8 % 256, bits % 256].map
      fun octet => (toString octet).toList)

def ipv6Groups (bits : Nat) : List Nat :=
  (List.range 8).map fun index => bits / 65536 ^ (7 - index) % 65536

def groupsText (groups : List Nat) : List Char :=
  [':'].intercalate (groups.map (Nat.toDigits 16))

/-- The zeros at the front of every rest of the groups. -/
def zeroRuns (groups : List Nat) : List Nat :=
  (List.range groups.length).map fun start => ((groups.drop start).takeWhile (· = 0)).length

/-- `Display` of an address; the first of the longest runs of at least two zeros is left out. -/
def ipv6Text (bits : Nat) : List Char :=
  let groups := ipv6Groups bits
  if bits / 2 ^ 32 = 0xffff then "::ffff:".toList ++ ipv4Text (bits % 2 ^ 32)
  else
    let runs := zeroRuns groups
    let length := runs.foldl max 0
    let start := runs.findIdx (· = length)
    if 1 < length then
      groupsText (groups.take start) ++ "::".toList ++ groupsText (groups.drop (start + length))
    else groupsText groups

def IpAddr.text : IpAddr → List Char
  | v4 bits => ipv4Text bits
  | v6 bits => ipv6Text bits

example : (parseIpAddr "2001:DB8:0:0:1::9".toList).map IpAddr.text = some "2001:db8::1:0:0:9".toList := by
  decide

example : parseIpAddr "::ffff:1.2.3.4".toList = parseIpAddr "0:0:0:0:0:FFFF:0102:0304".toList := by
  decide

example : parseIpAddr "1::2::3".toList = none := by decide

example : parseIpAddr "010.0.0.1".toList = none := by decide

end PortMate
