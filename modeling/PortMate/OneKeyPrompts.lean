import PortMate.CommandTerminators
import PortMate.LineStream
import PortMate.Redaction
import PortMate.TextPatterns

namespace PortMate

open List TextPattern

section Prompts

inductive OneKeyField
  | username
  | password
  | passphrase
  deriving DecidableEq

inductive DetectedOneKeyPrompt
  | username
  | password (usernameHint : Option (List Char))
  deriving DecidableEq

def caselessWord (name : String) : TextPattern Char := .word (name.toList.map caseless)

def visible (c : Char) : Bool := !isRustWhitespace c

def blanks : TextPattern Char := .star (.set isRustWhitespace)

def spacing : TextPattern Char := .plus (.set isRustWhitespace)

/-- `\s*:\s*` -/
def promptColon : TextPattern Char := .seq blanks (.seq (.set (· == ':')) blanks)

def passwordChange : TextPattern Char :=
  .seq (.anyOf (["current", "old", "existing", "new", "retype", "repeat", "confirm"].map caselessWord)) <|
  .seq (.star (.seq spacing (.anyOf (["new", "old", "current", "unix"].map caselessWord)))) <|
  .seq spacing <| .seq (caselessWord "password") <|
  .seq (.opt (.seq spacing (.seq (caselessWord "for") (.seq spacing (.plus (.set visible)))))) promptColon

def isHintChar (c : Char) : Bool := visible c && c != ':'

/-- `password\s+for\s+([^\s:]+)\s*:\s*` -/
def passwordFor : TextPattern Char :=
  .seq (caselessWord "password") <| .seq spacing <| .seq (caselessWord "for") <| .seq spacing <|
    .seq (.plus (.set isHintChar)) promptColon

def isUserChar (c : Char) : Bool := visible c && c != '@'

/-- `([^\s@]+)@\S+(?:'s)?\s+password\s*:\s*` -/
def opensshPassword : TextPattern Char :=
  .seq (.plus (.set isUserChar)) <| .seq (.set (· == '@')) <| .seq (.plus (.set visible)) <|
    .seq (.opt (caselessWord "'s")) <| .seq spacing <| .seq (caselessWord "password") promptColon

def plainPassword : TextPattern Char := .seq (caselessWord "password") promptColon

def usernamePrompt : TextPattern Char :=
  .seq (.anyOf [caselessWord "username", caselessWord "login"]) promptColon

/-- The ways to cut a text in two, from the left. -/
def cuts (text : List Char) : List (List Char × List Char) :=
  (List.range (text.length + 1)).map fun index => (text.take index, text.drop index)

/-- `\b`, with the word characters of the `regex` crate. -/
def wordBoundary (wordChar : Char → Bool) (front part : List Char) : Bool :=
  front.getLast?.any wordChar != part.head?.any wordChar

/-- The leftmost match of a pattern between a word boundary and the end of the line. -/
def findAtEnd (wordChar : Char → Bool) (pattern : TextPattern Char) (line : List Char) :
    Option (List Char) :=
  ((cuts line).find? fun cut =>
    wordBoundary wordChar cut.1 cut.2 && pattern.accepts cut.2).map Prod.snd

/-- The part behind `(?:^|\s)`. -/
def behindGap (front part : List Char) : List (List Char) :=
  (if front.isEmpty then [part] else []) ++
    match part with
    | [] => []
    | c :: rest => if isRustWhitespace c then [rest] else []

def findOpenssh (line : List Char) : Option (List Char) :=
  ((cuts line).flatMap fun cut => behindGap cut.1 cut.2).find? opensshPassword.accepts

/-- The name in a match of `passwordFor`: the letters of both words are skipped with what is blank
behind them. -/
def passwordForHint (part : List Char) : List Char :=
  let name := (part.drop "password".length).dropWhile isRustWhitespace
  ((name.drop "for".length).dropWhile isRustWhitespace).takeWhile isHintChar

inductive SanitizerMode
  | text
  | escape
  | control
  | string (escaped : Bool)

/-- The text without control sequences; `output` is what is shown so far, from its end. -/
def sanitizePromptFrom : SanitizerMode → List Char → List Char → List Char
  | _, output, [] => output.reverse
  | .text, output, c :: text =>
    if c = '\x1b' then sanitizePromptFrom .escape output text
    else if c = '\x08' ∨ c = '\x7f' then
      match output with
      | last :: before =>
        if last = '\n' ∨ last = '\r' then sanitizePromptFrom .text output text
        else sanitizePromptFrom .text before text
      | [] => sanitizePromptFrom .text [] text
    else if isRustControl c = false ∨ c = '\n' ∨ c = '\r' ∨ c = '\t' then
      sanitizePromptFrom .text (c :: output) text
    else sanitizePromptFrom .text output text
  | .escape, output, c :: text =>
    if c = '[' then sanitizePromptFrom .control output text
    else if c = ']' ∨ c = 'P' ∨ c = '^' ∨ c = '_' then
      sanitizePromptFrom (.string false) output text
    else sanitizePromptFrom .text output text
  | .control, output, c :: text =>
    if '\x40' ≤ c ∧ c ≤ '\x7e' then sanitizePromptFrom .text output text
    else sanitizePromptFrom .control output text
  | .string escaped, output, c :: text =>
    if c = '\x07' ∨ (escaped = true ∧ c = '\\') then sanitizePromptFrom .text output text
    else sanitizePromptFrom (.string (c == '\x1b')) output text

def sanitizeTerminalPromptText (raw : List Char) : List Char := sanitizePromptFrom .text [] raw

def lastCharacters (max : Nat) (text : List Char) : List Char := text.drop (text.length - max)

def maxOneKeyPromptBufferCharacters : Nat := 1024

def maxOneKeyPromptLineCharacters : Nat := 160

/-- The last line of the display, without the blanks at its end. -/
def oneKeyPromptLine (display : List Char) : Option (List Char) :=
  let line := trimEnd (openPart '\n' display)
  if line = [] then none else some (lastCharacters maxOneKeyPromptLineCharacters line)

def promptDisplay (raw : List Char) : List Char :=
  normalizeLineEnds (sanitizeTerminalPromptText raw)

def detectOnLine (wordChar : Char → Bool) (line : List Char) : Option DetectedOneKeyPrompt :=
  if (findAtEnd wordChar passwordChange line).isSome then none
  else
    match findAtEnd wordChar passwordFor line with
    | some part => some (.password (some (passwordForHint part)))
    | none =>
      match findOpenssh line with
      | some part => some (.password (some (part.takeWhile isUserChar)))
      | none =>
        if (findAtEnd wordChar plainPassword line).isSome then some (.password none)
        else if (findAtEnd wordChar usernamePrompt line).isSome then some .username
        else none

def detectOneKeyTerminalPrompt (wordChar : Char → Bool) (raw : List Char) :
    Option DetectedOneKeyPrompt :=
  (oneKeyPromptLine (promptDisplay raw)).bind (detectOnLine wordChar)

end Prompts

section Validation

def EventStream.isTerminal (stream : EventStream) : Bool := stream == .stdout || stream == .stderr

/-- What an event adds to the text in which a prompt is looked for. -/
def addPromptText (raw : List Char) (event : SessionEvent) : List Char :=
  if event.direction = .outbound then []
  else if event.direction = .inbound ∧ event.stream.isTerminal then
    match event.text with
    | some text => lastCharacters maxOneKeyPromptBufferCharacters (raw ++ text.toList)
    | none => raw
  else raw

/-- The loop of `one_key_prompt_at_event` over the events of the session. -/
def oneKeyPromptText (promptEventId : String) (raw : List Char) :
    List SessionEvent → Except String (List Char)
  | [] => .error "终端提示已不存在，请等待新的 OneKey 补全提示"
  | event :: later =>
    let raw := addPromptText raw event
    if event.id = promptEventId then
      if event.direction ≠ .inbound ∨ !event.stream.isTerminal ∨ event.text.all String.isEmpty then
        .error "promptEventId 不是有效的终端入站提示事件"
      else if later.any fun event => event.direction == .inbound || event.direction == .outbound then
        .error "终端提示已变化，请等待新的 OneKey 补全提示"
      else .ok raw
    else oneKeyPromptText promptEventId raw later

def oneKeyPromptAtEvent (wordChar : Char → Bool) (events : List SessionEvent) (sessionId : String)
    (promptEventId : String) : Except String DetectedOneKeyPrompt := do
  let raw ← oneKeyPromptText promptEventId [] (events.filter fun event => event.sessionId = sessionId)
  match detectOneKeyTerminalPrompt wordChar raw with
  | some prompt => .ok prompt
  | none => .error "promptEventId 不再匹配 OneKey 用户名或密码提示"

def validateOneKeyPromptCompletion (wordChar : Char → Bool) (events : List SessionEvent)
    (oneKey : OneKeyCredential) (sessionId : String) (field : OneKeyField) (promptEventId : String) :
    Except String Unit := do
  let prompt ← oneKeyPromptAtEvent wordChar events sessionId promptEventId
  match field, prompt with
  | .username, .username => .ok ()
  | .password, .password usernameHint =>
    if usernameHint.any (· ≠ oneKey.username.toList) then
      .error "OneKey 用户名与终端密码提示不匹配"
    else .ok ()
  | .passphrase, _ => .error "终端提示补全不支持发送私钥口令"
  | _, _ => .error "OneKey 字段与当前终端提示不匹配"

end Validation

section Text

def promptText (event : SessionEvent) : List Char :=
  if event.direction = .inbound ∧ event.stream.isTerminal then
    (event.text.map String.toList).getD []
  else []

/-- The terminal text behind the last event that was sent. -/
def textSinceSent (log : List SessionEvent) : List Char :=
  (log.reverse.takeWhile fun event => event.direction != .outbound).reverse.flatMap promptText

/-- The terminal text that a session received since it last sent something. -/
def receivedSinceSent (sessionId : String) (events : List SessionEvent) : List Char :=
  textSinceSent (events.filter fun event => event.sessionId = sessionId)

theorem textSinceSent_append (log : List SessionEvent) (event : SessionEvent) :
    textSinceSent (log ++ [event]) =
      if event.direction = .outbound then [] else textSinceSent log ++ promptText event := by
  rw [textSinceSent, reverse_append, reverse_singleton, singleton_append,
    takeWhile_cons]
  cases direction : event.direction <;> simp [textSinceSent]

theorem lastCharacters_long {max : Nat} (front : List Char) {text : List Char}
    (long : max ≤ text.length) : lastCharacters max (front ++ text) = lastCharacters max text := by
  have split : (front ++ text).length - max = front.length + (text.length - max) := by
    rw [length_append]
    omega
  rw [lastCharacters, split, drop_length_add_append, lastCharacters]

theorem lastCharacters_append (max : Nat) (text more : List Char) :
    lastCharacters max (lastCharacters max text ++ more) = lastCharacters max (text ++ more) := by
  by_cases short : text.length ≤ max
  · have whole : lastCharacters max text = text := by
      rw [lastCharacters, Nat.sub_eq_zero_of_le short, drop_zero]
    rw [whole]
  · have kept : (lastCharacters max text).length = max := by
      rw [lastCharacters, length_drop]
      omega
    have whole : text = text.take (text.length - max) ++ lastCharacters max text :=
      (take_append_drop _ text).symm
    have long : max ≤ (lastCharacters max text ++ more).length := by
      rw [length_append]
      omega
    calc lastCharacters max (lastCharacters max text ++ more)
        = lastCharacters max (text.take (text.length - max) ++ (lastCharacters max text ++ more)) :=
          (lastCharacters_long _ long).symm
      _ = lastCharacters max (text ++ more) := by rw [← append_assoc, ← whole]

theorem addPromptText_all (log : List SessionEvent) :
    log.foldl addPromptText [] =
      lastCharacters maxOneKeyPromptBufferCharacters (textSinceSent log) := by
  induction log using List.reverseRecOn with
  | nil => rfl
  | append_singleton log event ih =>
    rw [foldl_append, ih, textSinceSent_append, foldl_cons, foldl_nil, addPromptText,
      promptText]
    split
    · rfl
    · split
      · cases event.text with
        | none => simp
        | some text => exact lastCharacters_append _ _ _
      · rw [append_nil]

theorem textSinceSent_system {log after : List SessionEvent}
    (system : ∀ event ∈ after, event.direction = .system) :
    textSinceSent (log ++ after) = textSinceSent log := by
  induction after using List.reverseRecOn with
  | nil => rw [append_nil]
  | append_singleton after event ih =>
    have here : event.direction = .system := system event (by simp)
    rw [← append_assoc, textSinceSent_append, ih fun event mem => system event (by simp [mem]),
      promptText, here]
    simp

end Text

section Scan

variable {promptEventId : String} {raw result : List Char} {events more : List SessionEvent}

structure IsPromptEvent (event : SessionEvent) : Prop where
  inbound : event.direction = .inbound
  terminal : event.stream.isTerminal = true
  text : ∃ text, event.text = some text ∧ text.isEmpty = false

theorem oneKeyPromptText_ok (read : oneKeyPromptText promptEventId raw events = .ok result) :
    ∃ before event after, events = before ++ event :: after ∧ event.id = promptEventId ∧
      IsPromptEvent event ∧ (∀ event ∈ after, event.direction = .system) ∧
      result = (before ++ [event]).foldl addPromptText raw := by
  induction events generalizing raw with
  | nil => cases read
  | cons event events ih =>
    rw [oneKeyPromptText] at read
    split at read
    next same =>
      split at read
      next => cases read
      next valid =>
        split at read
        next => cases read
        next quiet =>
          obtain rfl := Except.ok.inj read
          simp only [ne_eq, not_or, Decidable.not_not, Bool.not_eq_true', Bool.not_eq_false] at valid
          refine ⟨[], event, events, rfl, same, ⟨valid.1, valid.2.1, ?_⟩, ?_, rfl⟩
          · cases text : event.text with
            | none => simp [text] at valid
            | some text' =>
              rw [text] at valid
              exact ⟨text', rfl, by simpa using valid.2.2⟩
          · intro later mem
            have neither := any_eq_false.mp (Bool.eq_false_iff.mpr quiet) later mem
            cases direction : later.direction <;> simp [direction] at neither ⊢
    next =>
      obtain ⟨before, found, after, rfl, same, prompt, system, rfl⟩ := ih read
      exact ⟨event :: before, found, after, rfl, same, prompt, system, rfl⟩

theorem oneKeyPromptText_more (read : oneKeyPromptText promptEventId raw events = .ok result)
    (exchanged : ∃ event ∈ more, event.direction ≠ .system) :
    ∃ error, oneKeyPromptText promptEventId raw (events ++ more) = .error error := by
  induction events generalizing raw with
  | nil => cases read
  | cons event events ih =>
    rw [oneKeyPromptText] at read
    rw [cons_append, oneKeyPromptText]
    split at read
    next same =>
      rw [if_pos same]
      split at read
      next => cases read
      next valid =>
        obtain ⟨later, mem, other⟩ := exchanged
        have overtaken : ((events ++ more).any fun event =>
            event.direction == .inbound || event.direction == .outbound) = true := by
          refine any_eq_true.mpr ⟨later, mem_append_right _ mem, ?_⟩
          cases direction : later.direction <;> simp [direction] at other ⊢
        rw [if_neg valid, if_pos overtaken]
        exact ⟨_, rfl⟩
    next differs =>
      rw [if_neg differs]
      exact ih read

end Scan

section Shape

variable {wordChar : Char → Bool} {pattern : TextPattern Char} {line part : List Char}

theorem mem_cuts {text : List Char} {cut : List Char × List Char} (mem : cut ∈ cuts text) :
    text = cut.1 ++ cut.2 := by
  obtain ⟨index, -, rfl⟩ := mem_map.mp mem
  exact (take_append_drop index text).symm

/-- The line ends in a match that starts at a word boundary. -/
def EndsAtWord (wordChar : Char → Bool) (pattern : TextPattern Char) (line part : List Char) : Prop :=
  ∃ front, line = front ++ part ∧ wordBoundary wordChar front part = true ∧ part ∈ pattern.language

theorem findAtEnd_some (found : findAtEnd wordChar pattern line = some part) :
    EndsAtWord wordChar pattern line part := by
  obtain ⟨cut, first, rfl⟩ := Option.map_eq_some_iff.mp found
  have holds := find?_some first
  rw [Bool.and_eq_true] at holds
  exact ⟨cut.1, mem_cuts (mem_of_find?_eq_some first), holds.1,
    (accepts_iff _ _).mp holds.2⟩

theorem findOpenssh_some (found : findOpenssh line = some part) :
    ∃ front, line = front ++ part ∧ part ∈ opensshPassword.language ∧
      ∀ c, front.getLast? = some c → isRustWhitespace c = true := by
  have accepted := (accepts_iff _ _).mp (find?_some found)
  obtain ⟨cut, mem, behind⟩ := mem_flatMap.mp (mem_of_find?_eq_some found)
  have whole := mem_cuts mem
  unfold behindGap at behind
  obtain behind | behind := mem_append.mp behind
  · split at behind
    next start =>
      obtain rfl := mem_singleton.mp behind
      refine ⟨cut.1, whole, accepted, ?_⟩
      rw [List.isEmpty_iff.mp start]
      exact nofun
    next => cases behind
  · split at behind
    next => cases behind
    next c rest content =>
      split at behind
      next white =>
        obtain rfl := mem_singleton.mp behind
        refine ⟨cut.1 ++ [c], by rw [whole, content]; simp, accepted, ?_⟩
        rw [getLast?_concat]
        exact fun d same => Option.some.inj same ▸ white
      next => cases behind

/-- The line ends in a prompt for the field; a prompt that names a user names this one. -/
inductive EndsInPrompt (wordChar : Char → Bool) (username line : List Char) : OneKeyField → Prop
  | username {part : List Char} (ends : EndsAtWord wordChar usernamePrompt line part) :
      EndsInPrompt wordChar username line .username
  | password {part : List Char} (ends : EndsAtWord wordChar plainPassword line part) :
      EndsInPrompt wordChar username line .password
  | passwordFor {part : List Char} (ends : EndsAtWord wordChar passwordFor line part)
      (named : passwordForHint part = username) : EndsInPrompt wordChar username line .password
  | opensshPassword {front part : List Char} (whole : line = front ++ part)
      (ends : part ∈ opensshPassword.language)
      (start : ∀ c, front.getLast? = some c → isRustWhitespace c = true)
      (named : part.takeWhile isUserChar = username) : EndsInPrompt wordChar username line .password

theorem detectOnLine_username (detected : detectOnLine wordChar line = some .username)
    (username : List Char) : EndsInPrompt wordChar username line .username := by
  rw [detectOnLine] at detected
  split at detected
  · cases detected
  · split at detected
    · cases detected
    · split at detected
      · cases detected
      · split at detected
        · cases detected
        · split at detected
          next found =>
            obtain ⟨part, found⟩ := Option.isSome_iff_exists.mp found
            exact .username (findAtEnd_some found)
          next => cases detected

theorem detectOnLine_password {usernameHint : Option (List Char)} {username : List Char}
    (detected : detectOnLine wordChar line = some (.password usernameHint))
    (named : ∀ name, usernameHint = some name → name = username) :
    EndsInPrompt wordChar username line .password := by
  rw [detectOnLine] at detected
  split at detected
  · cases detected
  · split at detected
    next part found =>
      cases Option.some.inj detected
      exact .passwordFor (findAtEnd_some found) (named _ rfl)
    next =>
      split at detected
      next part found =>
        cases Option.some.inj detected
        obtain ⟨front, whole, ends, start⟩ := findOpenssh_some found
        exact .opensshPassword whole ends start (named _ rfl)
      next =>
        split at detected
        next found =>
          obtain ⟨part, found⟩ := Option.isSome_iff_exists.mp found
          exact .password (findAtEnd_some found)
        next =>
          split at detected
          · cases detected
          · cases detected

end Shape

section Answers

/-- The last event that the session sent or received. -/
def latestExchange (sessionId : String) (events : List SessionEvent) : Option SessionEvent :=
  (events.filter fun event => event.sessionId = sessionId ∧ event.direction ≠ .system).getLast?

variable {wordChar : Char → Bool} {events : List SessionEvent} {oneKey : OneKeyCredential}
  {sessionId promptEventId : String} {field : OneKeyField}

structure PromptStands (wordChar : Char → Bool) (events : List SessionEvent)
    (oneKey : OneKeyCredential) (sessionId : String) (field : OneKeyField) (promptEventId : String) :
    Prop where
  latest : ∃ event ∈ events, latestExchange sessionId events = some event ∧
    event.sessionId = sessionId ∧ event.id = promptEventId ∧ IsPromptEvent event
  shown : ∃ line, oneKeyPromptLine (promptDisplay (lastCharacters maxOneKeyPromptBufferCharacters
    (receivedSinceSent sessionId events))) = some line ∧
      EndsInPrompt wordChar oneKey.username.toList line field

theorem latestExchange_of_split {own before after : List SessionEvent} {event : SessionEvent}
    (split : own = before ++ event :: after) (prompt : IsPromptEvent event)
    (system : ∀ event ∈ after, event.direction = .system) :
    (own.filter fun event => event.direction ≠ .system).getLast? = some event := by
  have none : after.filter (fun event => event.direction ≠ .system) = [] :=
    filter_eq_nil_iff.mpr fun event mem => by simp [system event mem]
  rw [split, List.filter_append, filter_cons_of_pos (by simp [prompt.inbound]), none,
    getLast?_concat]

theorem oneKeyPromptAtEvent_ok {prompt : DetectedOneKeyPrompt}
    (found : oneKeyPromptAtEvent wordChar events sessionId promptEventId = .ok prompt) :
    ∃ raw, oneKeyPromptText promptEventId [] (events.filter fun event => event.sessionId = sessionId)
      = .ok raw ∧ detectOneKeyTerminalPrompt wordChar raw = some prompt := by
  obtain ⟨raw, read, found⟩ := except_bind_eq_ok found
  refine ⟨raw, read, ?_⟩
  split at found
  next detected => rw [detected, Except.ok.inj found]
  next => cases found

theorem validate_ok
    (valid : validateOneKeyPromptCompletion wordChar events oneKey sessionId field promptEventId =
      .ok ()) :
    ∃ prompt, oneKeyPromptAtEvent wordChar events sessionId promptEventId = .ok prompt ∧
      ∀ line, detectOnLine wordChar line = some prompt →
        EndsInPrompt wordChar oneKey.username.toList line field := by
  obtain ⟨prompt, atEvent, fits⟩ := except_bind_eq_ok valid
  refine ⟨prompt, atEvent, fun line onLine => ?_⟩
  split at fits
  next => exact detectOnLine_username onLine _
  next usernameHint =>
    split at fits
    next => cases fits
    next named =>
      refine detectOnLine_password onLine fun name hint => ?_
      rw [hint] at named
      simpa using named
  next => cases fits
  next => cases fits

theorem validate_stands
    (valid : validateOneKeyPromptCompletion wordChar events oneKey sessionId field promptEventId =
      .ok ()) : PromptStands wordChar events oneKey sessionId field promptEventId := by
  obtain ⟨prompt, atEvent, fits⟩ := validate_ok valid
  obtain ⟨raw, read, detected⟩ := oneKeyPromptAtEvent_ok atEvent
  obtain ⟨before, event, after, split, same, isPrompt, system, whole⟩ := oneKeyPromptText_ok read
  have text : textSinceSent (before ++ [event]) = receivedSinceSent sessionId events := by
    rw [receivedSinceSent, split, append_cons before event after, textSinceSent_system system]
  have tail : raw = lastCharacters maxOneKeyPromptBufferCharacters
      (receivedSinceSent sessionId events) := by
    rw [whole, addPromptText_all, text]
  have mem : event ∈ events.filter fun event => event.sessionId = sessionId := by
    rw [split]
    simp
  obtain ⟨inLog, own⟩ := mem_filter.mp mem
  obtain ⟨line, shown, onLine⟩ := Option.bind_eq_some_iff.mp detected
  constructor
  · refine ⟨event, inLog, ?_, by simpa using own, same, isPrompt⟩
    have latest := latestExchange_of_split split isPrompt system
    rw [filter_filter] at latest
    rw [latestExchange, ← latest]
    congr 1
    apply filter_congr
    intro event _
    rw [Bool.decide_and, Bool.and_comm]
  · rw [tail] at shown
    exact ⟨line, shown, fits line onLine⟩

theorem validate_overtaken {more : List SessionEvent}
    (valid : validateOneKeyPromptCompletion wordChar events oneKey sessionId field promptEventId =
      .ok ())
    (exchanged : ∃ event ∈ more, event.sessionId = sessionId ∧ event.direction ≠ .system)
    (later : OneKeyCredential) (field' : OneKeyField) :
    ∃ error, validateOneKeyPromptCompletion wordChar (events ++ more) later sessionId field'
      promptEventId = .error error := by
  obtain ⟨prompt, atEvent, -⟩ := except_bind_eq_ok valid
  obtain ⟨raw, read, -⟩ := except_bind_eq_ok atEvent
  obtain ⟨event, mem, own, exchange⟩ := exchanged
  have behind : ∃ event ∈ more.filter fun event => event.sessionId = sessionId,
      event.direction ≠ .system :=
    ⟨event, mem_filter.mpr ⟨mem, by simpa using own⟩, exchange⟩
  obtain ⟨error, refused⟩ := oneKeyPromptText_more read behind
  refine ⟨error, ?_⟩
  rw [validateOneKeyPromptCompletion, oneKeyPromptAtEvent, List.filter_append, refused]
  rfl

/-- A prompt is completed only while it stands at the end of the session's log. -/
theorem validateOneKeyPromptCompletion_sound
    (valid : validateOneKeyPromptCompletion wordChar events oneKey sessionId field promptEventId =
      .ok ()) :
    PromptStands wordChar events oneKey sessionId field promptEventId ∧
      ∀ more, (∃ event ∈ more, event.sessionId = sessionId ∧ event.direction ≠ .system) →
        ∀ later field', ∃ error, validateOneKeyPromptCompletion wordChar (events ++ more) later
          sessionId field' promptEventId = .error error :=
  ⟨validate_stands valid, fun _ exchanged later field' => validate_overtaken valid exchanged later field'⟩

def promptEvent (id text : String) : SessionEvent where
  id := id
  sessionId := "lab"
  paneId := "main"
  ts := 0
  direction := .inbound
  stream := .stdout
  bytesRef := none
  text := some text
  annotations := []

def labOneKey : OneKeyCredential where
  id := "onekey:lab"
  label := "Lab login"
  kind := .account
  username := "operator"
  passwordSecretRef := some "keychain:lab"
  passphraseSecretRef := none
  identity := none
  sessionIds := ["lab"]
  createdAt := 0
  updatedAt := 0

/-- A prompt that came in two parts. -/
theorem lab_prompt_stands :
    PromptStands (fun c => c.isAlphanum) [promptEvent "e1" "\x1b[33mPass",
      promptEvent "e2" "word for operator:\x1b[0m"] labOneKey "lab" .password "e2" :=
  (validateOneKeyPromptCompletion_sound (by decide)).1

end Answers

end PortMate
