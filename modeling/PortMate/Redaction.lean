import PortMate.RegexMatch
import PortMate.RustText

namespace PortMate

/-- A letter of a pattern under `(?i)`, with its foldings outside ASCII. -/
def caseless (letter c : Char) : Bool :=
  c == letter || c == letter.toUpper || (letter == 's' && c == '\u017F') ||
    (letter == 'k' && c == '\u212A')

def keyword (name : String) : Regex Char := .word (name.toList.map caseless)

def literal (text : String) : Regex Char := .word (text.toList.map fun letter c => c == letter)

def isQuote (c : Char) : Bool := c == '\x22' || c == '\x27'

def isWordJoin (c : Char) : Bool := c == '_' || c == '-'

def isAssignment (c : Char) : Bool := c == ':' || c == '='

def isUpperOrSpace (c : Char) : Bool := ('A' ≤ c && c ≤ 'Z') || c == ' '

/-- `[a-z0-9._~+/=-]` under `(?i)`. -/
def isTokenChar (c : Char) : Bool :=
  c.isAlphanum || ['.', '_', '~', '+', '/', '=', '-', '\u017F', '\u212A'].contains c

def secretName : Regex Char :=
  .alt (keyword "password") <| .alt (keyword "passwd") <| .alt (keyword "pwd") <|
    .alt (keyword "token") <|
    .alt (.seq (keyword "api") (.seq (.opt (.set isWordJoin)) (keyword "key"))) <|
    keyword "secret"

/-- `["']?(?:password|passwd|pwd|token|api[_-]?key|secret)["']?\s*[:=]\s*` -/
def keyPrefix : Regex Char :=
  .seq (.opt (.set isQuote)) <| .seq secretName <| .seq (.opt (.set isQuote)) <|
    .seq (.many true isRustWhitespace) <| .seq (.set isAssignment) (.many true isRustWhitespace)

def bearerWord : Regex Char := .seq (keyword "bearer") (.plus isRustWhitespace)

/-- `(bearer\s+)([a-z0-9._~+/=-]+)` -/
def bearerToken : Regex Char := .seq (.capture bearerWord) (.capture (.plus isTokenChar))

def pemMarker (edge : String) : Regex Char :=
  .seq (literal edge) (.seq (.many true isUpperOrSpace) (literal "PRIVATE KEY-----"))

def pemBegin : Regex Char := pemMarker "-----BEGIN "

def pemEnd : Regex Char := pemMarker "-----END "

/-- The marker lines and what stands between them, as little as possible. -/
def pemKey : Regex Char := .seq pemBegin (.upTo pemEnd)

def secretPatterns : List (Regex Char) := [bearerToken, pemKey]

/-- The search of the `regex` crate behind `find_iter` and `replace_all`. -/
abbrev Search := Regex Char → List Char → List (Piece Char)

/-- The crate's documentation: matches from left to right without overlaps, the earliest
first, and at one place the alternatives and repetitions in the order of preference. -/
def Search.Documented (search : Search) : Prop :=
  ∀ pattern ∈ keyPrefix :: secretPatterns, ∀ text, search pattern text = pattern.pieces text

def redacted : List Char := "<redacted>".toList

def redactedSecret : List Char := "<redacted-secret>".toList

def isLineBreak (c : Char) : Bool := c == '\r' || c == '\n'

def isDelimiter (c : Char) : Bool := c == ',' || c == ';'

def trimEnd (text : List Char) : List Char := text.rdropWhile isRustWhitespace

/-- The text from the quote that closes a value on. -/
def fromClosingQuote (quote : Char) : Bool → List Char → Option (List Char)
  | _, [] => none
  | true, _ :: text => fromClosingQuote quote false text
  | false, c :: text =>
    if c = '\\' then fromClosingQuote quote true text
    else if c = quote then some (c :: text)
    else fromClosingQuote quote false text

/-- A quoted value with the content replaced; `none` where it is not quoted or not closed. -/
def redactQuoted (line : List Char) : Option (List Char) :=
  match line.dropWhile isRustWhitespace with
  | [] => none
  | quote :: text =>
    if isQuote quote then
      (fromClosingQuote quote false text).map fun rest =>
        line.takeWhile isRustWhitespace ++ quote :: redacted ++ rest
    else none

/-- The value before the delimiter that ends it, where another key follows. -/
def beforeDelimiter (trimmed : List Char) : List Char :=
  match trimmed.reverse.dropWhile (fun c => !isDelimiter c) with
  | [] => trimmed
  | _ :: value =>
    if (trimmed.reverse.takeWhile fun c => !isDelimiter c).all isRustWhitespace then value.reverse
    else trimmed

def unquotedValue (nextKey : Bool) (line : List Char) : List Char :=
  if nextKey then beforeDelimiter (trimEnd line) else line

def redactValue (nextKey : Bool) (line : List Char) : List Char :=
  match redactQuoted line with
  | some output => output
  | none =>
    let value := unquotedValue nextKey line
    if value = [] then line else redacted ++ line.drop value.length

/-- What stands between a key and the next: its value ends with the line. -/
def redactGap (nextKey : Bool) (gap : List Char) : List Char :=
  redactValue nextKey (gap.takeWhile fun c => !isLineBreak c) ++
    gap.dropWhile fun c => !isLineBreak c

/-- The text before the first key, and each key with what stands up to the next. -/
def keyedValues : List (Piece Char) → List Char × List (List Char × List Char)
  | [] => ([], [])
  | .text c :: pieces => (c :: (keyedValues pieces).1, (keyedValues pieces).2)
  | .found key _ :: pieces => ([], (key, (keyedValues pieces).1) :: (keyedValues pieces).2)

/-- `nextKey` tells whether a key follows behind the last value. -/
def redactKeyed (nextKey : Bool) : List (List Char × List Char) → List Char
  | [] => []
  | (key, gap) :: rest =>
    key ++ redactGap (nextKey || !rest.isEmpty) gap ++ redactKeyed nextKey rest

def redactKeys (nextKey : Bool) (pieces : List (Piece Char)) : List Char :=
  (keyedValues pieces).1 ++ redactKeyed nextKey (keyedValues pieces).2

def redactKeyValueSecrets (search : Search) (input : List Char) : List Char :=
  redactKeys false (search keyPrefix input)

def secretReplacement (_ : List Char) : List (List Char) → List Char
  | [kept, _] => kept ++ redacted
  | _ => redactedSecret

/-- The loop that replaces until nothing changes, for a number of rounds. -/
def repeatUntilStable (pass : List Char → List Char) : Nat → List Char → Option (List Char)
  | 0, _ => none
  | rounds + 1, acc =>
    if pass acc = acc then some acc else repeatUntilStable pass rounds (pass acc)

def redactSecrets (search : Search) (rounds : Nat) (input : List Char) : Option (List Char) :=
  secretPatterns.foldlM
    (fun acc pattern =>
      repeatUntilStable (fun text => replacePieces secretReplacement (search pattern text)) rounds acc)
    (redactKeyValueSecrets search input)

end PortMate
