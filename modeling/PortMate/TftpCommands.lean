import PortMate.TftpReceivers

namespace PortMate

open Char Nat String

def TftpReceiverSpec.commandLines (spec : TftpReceiverSpec) (fileName : String) (serverIp : Nat)
    (serverPort : UInt16) : Except String String := do
  validateTftpFileName fileName
  let address := spec.address.getD "$\x7bloadaddr\x7d"
  let commands := "setenv ipaddr " ++ ipv4String spec.deviceIp ++ "\rsetenv serverip " ++
    ipv4String serverIp ++ "\r"
  let commands := commands ++
    if serverPort.toNat = defaultTftpPort then "setenv tftpdstp\r"
    else "setenv tftpdstp " ++ toString serverPort.toNat ++ "\r"
  return commands ++
    if serverPort.toNat = defaultTftpPort then "tftpboot " ++ address ++ " " ++ fileName ++ "\r"
    else "tftpboot " ++ address ++ " " ++ ipv4String serverIp ++ ":" ++
      toString serverPort.toNat ++ ":" ++ fileName ++ "\r"

open TftpReceiverSpec

def splitTftpCommandLines (commands : String) : List (List Char) :=
  (splitInclusive '\r' commands.toList).filter fun line => !line.isEmpty

/-- What a console gives a meaning: between commands, in quotes, for variables or for patterns. -/
def consoleMarks : List Char :=
  [';', '&', '|', '$', '\'', '"', '\\', '\x7b', '\x7d', '(', ')', '#', '<', '>', '\x60', '!', '*', '?',
    '[', ']', '~', '=', '%', '^']

/-- Blanks, line ends and other characters that are not printed, and the marks. -/
def consoleSpecial (c : Char) : Bool :=
  c.toNat ≤ 32 || 127 ≤ c.toNat || consoleMarks.contains c

def loadAddressVariable : List Char := "$\x7bloadaddr\x7d".toList

def TftpReceiverSpec.commandWords (spec : TftpReceiverSpec) (fileName : String) (serverIp : Nat)
    (serverPort : UInt16) : List (List (List Char)) :=
  let address := (spec.address.map String.toList).getD loadAddressVariable
  let port := toDigits 10 serverPort.toNat
  let defaultPort := serverPort.toNat = defaultTftpPort
  [["setenv".toList, "ipaddr".toList, ipv4Text spec.deviceIp],
    ["setenv".toList, "serverip".toList, ipv4Text serverIp],
    ["setenv".toList, "tftpdstp".toList] ++ if defaultPort then [] else [port],
    ["tftpboot".toList, address,
      if defaultPort then fileName.toList
      else ipv4Text serverIp ++ ':' :: port ++ ':' :: fileName.toList]]

/-- A command line on the wire: the words with a blank between two, and a carriage return. -/
def commandLine (words : List (List Char)) : List Char := [' '].intercalate words ++ ['\r']

section Words

theorem plain_not_special {c : Char} (plain : tftpFileNameChar c = true ∨ c = ':') :
    consoleSpecial c = false := by
  rcases plain with plain | rfl
  · simp only [tftpFileNameChar, Bool.or_eq_true, decide_eq_true_eq] at plain
    rcases plain with ((((letter | rfl) | rfl) | rfl) | rfl) | rfl
    · have bounds := alphanum_bounds letter
      refine Bool.eq_false_iff.mpr fun special => ?_
      rw [consoleSpecial, Bool.or_eq_true, Bool.or_eq_true, decide_eq_true_eq, decide_eq_true_eq] at special
      rcases special with (low | high) | listed
      · omega
      · omega
      · have marks : (consoleMarks.all fun c => !c.isAlphanum) = true := by decide
        have none := List.all_eq_true.mp marks c (List.contains_iff_mem.mp listed)
        rw [letter] at none
        cases none
    all_goals decide
  · decide

theorem hexDigit?_plain {c : Char} (digit : (hexDigit? c).isSome = true) :
    tftpFileNameChar c = true := by
  have alphanum : c.isAlphanum = true := by
    delta isAlphanum isAlpha isUpper isLower isDigit
    simp only [Bool.or_eq_true, Bool.and_eq_true, decide_eq_true_eq, UInt32.le_iff_toNat_le, ge_iff_le]
    unfold hexDigit? at digit
    simp only [Bool.and_eq_true, decide_eq_true_eq, le_def, UInt32.le_iff_toNat_le] at digit
    simp only [reduceVal, UInt32.reduceToNat] at digit ⊢
    split at digit
    · omega
    · split at digit
      · omega
      · split at digit
        · omega
        · cases digit
  simp [tftpFileNameChar, alphanum]

theorem stripPrefix?_some {start value rest : String} (strips : stripPrefix? start value = some rest) :
    value.toList = start.toList ++ rest.toList := by
  unfold stripPrefix? at strips
  split at strips
  next starts =>
    obtain ⟨behind, same⟩ := isPrefixOf_iff.mp starts
    obtain rfl := Option.some.inj strips
    rw [toList_ofList, ← same, ← String.length_toList, List.drop_left]
  next => cases strips

theorem validateLoadAddress_chars {value result : String}
    (valid : validateLoadAddress value = .ok result) :
    value.toList ≠ [] ∧ ∀ c ∈ value.toList, tftpFileNameChar c = true := by
  unfold validateLoadAddress at valid
  dsimp only at valid
  split at valid
  next => cases valid
  next fits =>
    simp only [Bool.or_eq_true, not_or, Bool.not_eq_true', Bool.not_eq_false] at fits
    obtain ⟨⟨nonempty, -⟩, digits⟩ := fits
    have plain : ∀ rest : String, rest.toList.all (fun digit => (hexDigit? digit).isSome) = true →
        ∀ c ∈ rest.toList, tftpFileNameChar c = true :=
      fun rest all c mem => hexDigit?_plain (List.all_eq_true.mp all c mem)
    -- what stands before the digits is a zero and an x
    cases lower : stripPrefix? "0x" value with
    | some rest =>
      rw [lower] at digits
      rw [stripPrefix?_some lower]
      exact ⟨nofun, List.forall_mem_append.mpr ⟨List.all_eq_true.mp (by decide), plain rest digits⟩⟩
    | none =>
      cases upper : stripPrefix? "0X" value with
      | some rest =>
        rw [lower, upper] at digits
        rw [stripPrefix?_some upper]
        exact ⟨nofun, List.forall_mem_append.mpr ⟨List.all_eq_true.mp (by decide), plain rest digits⟩⟩
      | none =>
        rw [lower, upper] at nonempty digits
        exact ⟨fun empty => nonempty (String.isEmpty_iff.mpr (String.toList_eq_nil_iff.mp empty)),
          plain value digits⟩

theorem validateTftpFileName_chars {fileName : String}
    (valid : validateTftpFileName fileName = .ok ()) :
    fileName.toList ≠ [] ∧ ∀ c ∈ fileName.toList, tftpFileNameChar c = true := by
  unfold validateTftpFileName at valid
  split at valid
  · cases valid
  · next safe =>
    simp only [Bool.or_eq_true, not_or, Bool.not_eq_true', Bool.not_eq_false] at safe
    refine ⟨fun empty => safe.1.1.1.1 ?_, List.all_eq_true.mp safe.2⟩
    rw [String.isEmpty_iff]
    exact String.toList_eq_nil_iff.mp empty

end Words

section Accepted

theorem except_map_eq_ok {α β : Type} {x : Except String α} {f : α → β} {result : β}
    (mapped : x.map f = .ok result) : ∃ value, x = .ok value ∧ f value = result := by
  cases x with
  | error error => cases mapped
  | ok value => exact ⟨value, rfl, Except.ok.inj mapped⟩

variable {crates : EndpointCrates}

/-- What is known of the address while the parameters are read. -/
def TftpParameters.AddressChecked (parameters : TftpParameters) : Prop :=
  ∀ value, parameters.address = some value → validateLoadAddress value = .ok value

theorem read_addressChecked {parameters next : TftpParameters} {pair : String × String}
    (checked : parameters.AddressChecked) (read : parameters.read crates pair = .ok next) :
    next.AddressChecked := by
  -- only the first branch sets the address
  unfold TftpParameters.read at read
  split at read
  · obtain ⟨address, valid, rfl⟩ := except_map_eq_ok read
    intro value present
    obtain rfl := Option.some.inj present
    exact validateLoadAddress_ok valid ▸ valid
  repeat' split at read
  all_goals first
    | cases read; exact checked
    | (obtain ⟨_, -, rfl⟩ := except_map_eq_ok read; exact checked)
    | cases read

theorem foldlM_addressChecked {pairs : List (String × String)} {parameters found : TftpParameters}
    (checked : parameters.AddressChecked)
    (read : pairs.foldlM (TftpParameters.read crates) parameters = .ok found) :
    found.AddressChecked := by
  induction pairs generalizing parameters with
  | nil =>
    obtain rfl := Except.ok.inj read
    exact checked
  | cons pair pairs ih =>
    rw [List.foldlM_cons] at read
    obtain ⟨next, first, others⟩ := except_bind_eq_ok read
    exact ih (read_addressChecked checked first) others

theorem parseTftpReceiverEndpoint_address {value : String} {spec : TftpReceiverSpec}
    (accepted : parseTftpReceiverEndpoint crates value = .ok (some spec)) {address : String}
    (present : spec.address = some address) : validateLoadAddress address = .ok address := by
  unfold parseTftpReceiverEndpoint at accepted
  repeat' split at accepted
  all_goals cases accepted
  next parameters read _ _ _ =>
    have start : ({} : TftpParameters).AddressChecked := fun _ present => nomatch present
    exact foldlM_addressChecked start read address present

end Accepted

section Lines

variable {crates : EndpointCrates} {spec : TftpReceiverSpec} {fileName commands : String}
  {serverIp : Nat} {serverPort : UInt16}

theorem commandLines_ok (built : spec.commandLines fileName serverIp serverPort = .ok commands) :
    validateTftpFileName fileName = .ok () ∧
      commands.toList = (spec.commandWords fileName serverIp serverPort).flatMap commandLine := by
  obtain ⟨_, valid, built⟩ := except_bind_eq_ok built
  refine ⟨valid, ?_⟩
  obtain rfl := Except.ok.inj built
  have digits : (toString serverPort.toNat).toList = toDigits 10 serverPort.toNat :=
    toList_repr
  have address : (spec.address.getD "$\x7bloadaddr\x7d").toList =
      (spec.address.map String.toList).getD loadAddressVariable := by
    cases spec.address <;> rfl
  by_cases port : serverPort.toNat = defaultTftpPort
  · simp only [port, if_true, commandWords, commandLine, ← address,
      toList_append, ipv4String, toList_ofList, List.flatMap_cons, List.flatMap_nil]
    simp [List.intercalate]
  · dsimp only [commandWords]
    rw [if_neg port, if_neg port, if_neg port, if_neg port, ← address]
    generalize spec.address.getD "$\x7bloadaddr\x7d" = target
    simp only [toList_append, digits]
    generalize toDigits 10 serverPort.toNat = port
    simp [List.intercalate, commandLine, ipv4String]

/-- A word of a command is the variable for a missing address, or has no special character. -/
def TftpReceiverSpec.PlainWord (spec : TftpReceiverSpec) (word : List Char) : Prop :=
  word ≠ [] ∧ ((spec.address = none ∧ word = loadAddressVariable) ∨
    ∀ c ∈ word, consoleSpecial c = false)

theorem plainWord_of_chars {word : List Char} (nonempty : word ≠ [])
    (plain : ∀ c ∈ word, tftpFileNameChar c = true ∨ c = ':') : spec.PlainWord word :=
  ⟨nonempty, .inr fun c mem => plain_not_special (plain c mem)⟩

theorem plainWord_literal {word : List Char} (nonempty : word.isEmpty = false)
    (plain : (word.all fun c => !consoleSpecial c) = true) : spec.PlainWord word := by
  refine ⟨fun empty => ?_, .inr fun c mem => ?_⟩
  · rw [empty] at nonempty
    cases nonempty
  · exact Bool.not_eq_eq_eq_not.mp (List.all_eq_true.mp plain c mem)

theorem ipv4Text_plain {bits : Nat} {c : Char} (mem : c ∈ ipv4Text bits) :
    tftpFileNameChar c = true := by
  rcases ipv4Text_chars mem with rfl | digit
  · decide
  · simp [tftpFileNameChar, isAlphanum, digit]

theorem ipv4Text_ne_nil (bits : Nat) : ipv4Text bits ≠ [] := by
  simp [ipv4Text, List.intercalate]

theorem portDigits_plain {n : Nat} {c : Char} (mem : c ∈ toDigits 10 n) :
    tftpFileNameChar c = true := by
  simp [tftpFileNameChar, isAlphanum, toDigits_isDigit mem]

theorem commandWords_plain {value : String}
    (accepted : parseTftpReceiverEndpoint crates value = .ok (some spec))
    (valid : validateTftpFileName fileName = .ok ()) :
    ∀ words ∈ spec.commandWords fileName serverIp serverPort, words ≠ [] ∧
      ∀ word ∈ words, spec.PlainWord word := by
  have address : ∀ bits, spec.PlainWord (ipv4Text bits) := fun bits =>
    plainWord_of_chars (ipv4Text_ne_nil bits) fun c mem => .inl (ipv4Text_plain mem)
  have port : spec.PlainWord (toDigits 10 serverPort.toNat) :=
    plainWord_of_chars (toDigits_ne_nil) fun c mem => .inl (portDigits_plain mem)
  obtain ⟨nonempty, fileChars⟩ := validateTftpFileName_chars valid
  have file : spec.PlainWord fileName.toList :=
    plainWord_of_chars nonempty fun c mem => .inl (fileChars c mem)
  have target : spec.PlainWord (ipv4Text serverIp ++ ':' :: toDigits 10 serverPort.toNat ++
      ':' :: fileName.toList) := by
    refine plainWord_of_chars (by simp) fun c mem => ?_
    rw [List.append_assoc, List.cons_append, List.mem_append, List.mem_cons, List.mem_append,
      List.mem_cons] at mem
    rcases mem with ip | colon | port | colon | file
    · exact .inl (ipv4Text_plain ip)
    · exact .inr colon
    · exact .inl (portDigits_plain port)
    · exact .inr colon
    · exact .inl (fileChars c file)
  have loadAddress : spec.PlainWord ((spec.address.map String.toList).getD loadAddressVariable) := by
    cases present : spec.address with
    | none => exact ⟨by decide, .inl ⟨present, rfl⟩⟩
    | some text =>
      obtain ⟨nonempty, chars⟩ :=
        validateLoadAddress_chars (parseTftpReceiverEndpoint_address accepted present)
      exact plainWord_of_chars nonempty fun c mem => .inl (chars c mem)
  have setenv : spec.PlainWord "setenv".toList := plainWord_literal (by decide) (by decide)
  have ipaddr : spec.PlainWord "ipaddr".toList := plainWord_literal (by decide) (by decide)
  have serverip : spec.PlainWord "serverip".toList := plainWord_literal (by decide) (by decide)
  have tftpdstp : spec.PlainWord "tftpdstp".toList := plainWord_literal (by decide) (by decide)
  have tftpboot : spec.PlainWord "tftpboot".toList := plainWord_literal (by decide) (by decide)
  simp only [commandWords]
  split
  · simp only [List.forall_mem_cons, List.forall_mem_append]
    exact ⟨⟨nofun, setenv, ipaddr, address _, nofun⟩, ⟨nofun, setenv, serverip, address _, nofun⟩,
      ⟨nofun, ⟨setenv, tftpdstp, nofun⟩, nofun⟩, ⟨nofun, tftpboot, loadAddress, file, nofun⟩, nofun⟩
  · simp only [List.forall_mem_cons, List.forall_mem_append]
    exact ⟨⟨nofun, setenv, ipaddr, address _, nofun⟩, ⟨nofun, setenv, serverip, address _, nofun⟩,
      ⟨nofun, ⟨setenv, tftpdstp, nofun⟩, port, nofun⟩, ⟨nofun, tftpboot, loadAddress, target, nofun⟩,
      nofun⟩

theorem plainWord_return {word : List Char} (plain : spec.PlainWord word) : '\r' ∉ word := by
  rcases plain.2 with ⟨-, rfl⟩ | plain
  · decide
  · exact fun mem => absurd (plain '\r' mem) (by decide)

theorem line_unbroken {words : List (List Char)} (plain : ∀ word ∈ words, spec.PlainWord word) :
    '\r' ∉ [' '].intercalate words := by
  intro ends
  rcases mem_intercalate ends with blank | ⟨word, present, ends⟩
  · exact absurd blank (by decide)
  · exact plainWord_return (plain word present) ends

theorem splitTftpCommandLines_eq {lines : List (List (List Char))}
    (text : commands.toList = lines.flatMap commandLine)
    (plain : ∀ words ∈ lines, ∀ word ∈ words, spec.PlainWord word) :
    splitTftpCommandLines commands = lines.map commandLine := by
  have unbroken : ∀ line ∈ lines.map [' '].intercalate, '\r' ∉ line := by
    intro line mem ends
    obtain ⟨words, inside, rfl⟩ := List.mem_map.mp mem
    exact line_unbroken (plain words inside) ends
  have joined : commands.toList = (lines.map [' '].intercalate).flatMap (· ++ ['\r']) ++ [] := by
    rw [text, List.append_nil, List.flatMap_map]
    rfl
  obtain ⟨ended, rest⟩ := endedParts_joined unbroken []
  rw [splitTftpCommandLines, splitInclusive_eq, joined, ended, remainder, rest]
  have kept : ∀ line ∈ lines.map commandLine, (!line.isEmpty) = true := by
    intro line mem
    obtain ⟨words, -, rfl⟩ := List.mem_map.mp mem
    simp [commandLine]
  calc
    _ = (lines.map commandLine).filter fun line => !line.isEmpty := by
      simp only [List.not_mem_nil, not_false_iff, endedParts_plain, openPart_plain, List.append_nil,
        List.isEmpty_nil, if_true, List.map_map]
      rfl
    _ = lines.map commandLine := List.filter_eq_self.mpr kept

end Lines

/-- What is accepted as a destination is read from its endpoint as it was given, and the commands
for what is accepted as an endpoint are four lines of plain words, whatever the fields are. -/
theorem tftp_receiver_kept_apart :
    (∀ (crates : EndpointCrates) (serialize : PairSerializer) (destination : TftpbootDestination)
        (protocol : TransferProtocol) (endpoint : String),
      destination.normalize crates serialize protocol = .ok endpoint →
      (∀ pairs, structuredTftpPairs crates destination = .ok pairs →
        crates.ReadsPairs serialize pairs) →
      ∃ spec, parseTftpReceiverEndpoint crates endpoint = .ok (some spec) ∧
        destination.ReadAs spec) ∧
    ∀ (crates : EndpointCrates) (endpoint : String) (spec : TftpReceiverSpec)
        (fileName commands : String) (serverIp : Nat) (serverPort : UInt16),
      parseTftpReceiverEndpoint crates endpoint = .ok (some spec) →
      spec.commandLines fileName serverIp serverPort = .ok commands →
      (splitTftpCommandLines commands).length = 4 ∧
      splitTftpCommandLines commands =
        (spec.commandWords fileName serverIp serverPort).map commandLine ∧
      (∀ line ∈ splitTftpCommandLines commands, ∃ body, line = body ++ ['\r'] ∧ '\r' ∉ body) ∧
      ∀ words ∈ spec.commandWords fileName serverIp serverPort, words ≠ [] ∧
        ∀ word ∈ words, spec.PlainWord word := by
  refine ⟨fun crates serialize destination protocol endpoint accepted crate =>
    normalize_read_back accepted crate, ?_⟩
  intro crates endpoint spec fileName commands serverIp serverPort accepted built
  obtain ⟨valid, text⟩ := commandLines_ok built
  have plain := @commandWords_plain _ spec fileName serverIp serverPort _ accepted valid
  have lines := splitTftpCommandLines_eq text fun words mem => (plain words mem).2
  refine ⟨by rw [lines]; rfl, lines, ?_, plain⟩
  intro line mem
  rw [lines] at mem
  obtain ⟨words, inside, rfl⟩ := List.mem_map.mp mem
  exact ⟨[' '].intercalate words, rfl, line_unbroken (plain words inside).2⟩

def sampleTftpDestination : TftpbootDestination where
  deviceIp := "192.168.255.1"
  address := some "0x81800000"
  fileName := some "images/firmware.bin"
  serverIp := some "192.168.255.2"
  bindHost := some "0.0.0.0"
  bindPort := some 0
  timeoutSeconds := some 3600

def sampleTftpPairs : List (String × String) :=
  [("address", "0x81800000"), ("fileName", "images/firmware.bin"), ("deviceIp", "192.168.255.1"),
    ("serverIp", "192.168.255.2"), ("bindHost", "0.0.0.0"), ("bindPort", "0"),
    ("timeoutSeconds", "3600")]

def sampleTftpQuery : String :=
  "address=0x81800000&fileName=images%2Ffirmware.bin&deviceIp=192.168.255.1&serverIp=192.168.255.2&bindHost=0.0.0.0&bindPort=0&timeoutSeconds=3600"

/-- What the crate says of the sample and its pairs. -/
def sampleTftpCrates : EndpointCrates where
  parseUrl text :=
    if text = "load:tftpboot?" ++ sampleTftpQuery then .ok ⟨"load", "tftpboot", none, sampleTftpPairs⟩
    else .error "relative URL without a base"
  instantHolds seconds := seconds < 2 ^ 63

def sampleTftpSerializer : PairSerializer := fun pairs =>
  if pairs = sampleTftpPairs then sampleTftpQuery else ""

def sampleTftpReceiver : TftpReceiverSpec where
  address := some "0x81800000"
  fileName := some "images/firmware.bin"
  deviceIp := 3232300801
  serverIp := some 3232300802
  bindHost := some 0
  bindPort := 0
  timeout := 3600

theorem sample_pairs :
    structuredTftpPairs sampleTftpCrates sampleTftpDestination = .ok sampleTftpPairs := by
  decide +kernel

theorem sample_reads : sampleTftpCrates.ReadsPairs sampleTftpSerializer sampleTftpPairs := by
  simp [EndpointCrates.ReadsPairs, sampleTftpCrates, sampleTftpSerializer, tftpbootEndpoint]

theorem sample_normalized :
    sampleTftpDestination.normalize sampleTftpCrates sampleTftpSerializer .tftp =
      .ok ("load:tftpboot?" ++ sampleTftpQuery) := by
  decide +kernel

theorem sample_receiver :
    parseTftpReceiverEndpoint sampleTftpCrates ("load:tftpboot?" ++ sampleTftpQuery) =
      .ok (some sampleTftpReceiver) := by
  decide +kernel

theorem tftp_sample_kept_apart :
    (∃ spec, parseTftpReceiverEndpoint sampleTftpCrates ("load:tftpboot?" ++ sampleTftpQuery) =
      .ok (some spec) ∧ sampleTftpDestination.ReadAs spec) ∧
    (splitTftpCommandLines ("setenv ipaddr 192.168.255.1\rsetenv serverip 192.168.255.2\r" ++
      "setenv tftpdstp 1069\rtftpboot 0x81800000 192.168.255.2:1069:images/firmware.bin\r")).length = 4 :=
  ⟨tftp_receiver_kept_apart.1 sampleTftpCrates sampleTftpSerializer sampleTftpDestination .tftp _
      sample_normalized fun pairs found => by
        obtain rfl := Except.ok.inj (sample_pairs.symm.trans found)
        exact sample_reads,
    (tftp_receiver_kept_apart.2 sampleTftpCrates _ sampleTftpReceiver "images/firmware.bin" _
      3232300802 1069 sample_receiver (by decide)).1⟩

end PortMate
