import PortMate.LineStream
import PortMate.LogPaths
import PortMate.TftpServer
import PortMate.TransferEndpoints
import PortMate.Utf8Reading

namespace PortMate

open List

def tftpOpcodeRrq : UInt16 := 1

structure TftpReadRequest where
  fileName : String
  options : List (String × String)
  deriving DecidableEq

structure TftpRequestError where
  code : Nat
  message : String

namespace TftpRequestError

def illegal (message : String) : TftpRequestError := { code := 4, message }

def file (message : String) : TftpRequestError := { code := 1, message }

def option (message : String) : TftpRequestError := { code := 8, message }

end TftpRequestError

def takeTftpField : List UInt8 → Option (List UInt8 × List UInt8)
  | [] => none
  | byte :: bytes =>
    if byte = 0 then some ([], bytes)
    else (takeTftpField bytes).map fun (field, rest) => (byte :: field, rest)

theorem takeTftpField_some {bytes field rest : List UInt8}
    (taken : takeTftpField bytes = some (field, rest)) :
    bytes = field ++ 0 :: rest ∧ 0 ∉ field := by
  induction bytes generalizing field with
  | nil => cases taken
  | cons byte bytes ih =>
    rw [takeTftpField] at taken
    split at taken
    next zero =>
      obtain ⟨rfl, rfl⟩ := Prod.mk.inj (Option.some.inj taken)
      rw [zero]
      exact ⟨rfl, not_mem_nil⟩
    next nonzero =>
      obtain ⟨⟨field', rest'⟩, later, same⟩ := Option.map_eq_some_iff.mp taken
      obtain ⟨rfl, rfl⟩ := Prod.mk.inj same
      obtain ⟨rfl, clean⟩ := ih later
      exact ⟨rfl, by rw [mem_cons, not_or]; exact ⟨Ne.symm nonzero, clean⟩⟩

theorem takeTftpField_append {field : List UInt8} (clean : 0 ∉ field) (rest : List UInt8) :
    takeTftpField (field ++ 0 :: rest) = some (field, rest) := by
  induction field with
  | nil => rfl
  | cons byte field ih =>
    rw [mem_cons, not_or] at clean
    rw [cons_append, takeTftpField, if_neg (Ne.symm clean.1), ih clean.2]
    rfl

theorem takeTftpField_none {bytes : List UInt8} (clean : 0 ∉ bytes) : takeTftpField bytes = none := by
  induction bytes with
  | nil => rfl
  | cons byte bytes ih =>
    rw [mem_cons, not_or] at clean
    rw [takeTftpField, if_neg (Ne.symm clean.1), ih clean.2]
    rfl

/-- The complete fields up to the first empty one; a tail without its NUL is padding. -/
def requestOptionFields (bytes : List UInt8) : List (List UInt8) :=
  match taken : takeTftpField bytes with
  | none => []
  | some (field, rest) =>
    have : rest.length < bytes.length := by
      rw [(takeTftpField_some taken).1]
      simp
      omega
    if field.isEmpty then [] else field :: requestOptionFields rest
termination_by bytes.length

/-- `as_chunks` of two; an odd last one is left over. -/
def fieldPairs : List (List UInt8) → List (List UInt8 × List UInt8)
  | name :: value :: fields => (name, value) :: fieldPairs fields
  | _ => []

def readTftpOption (pair : List UInt8 × List UInt8) :
    Except TftpRequestError (String × String) :=
  match fromUtf8 pair.1 with
  | none => .error (.option "TFTP RRQ 选项名不是 UTF-8")
  | some name =>
    match fromUtf8 pair.2 with
    | none => .error (.option "TFTP RRQ 选项值不是 UTF-8")
    | some value =>
      if name.isEmpty || value.isEmpty then .error (.option "TFTP RRQ 包含空选项")
      else .ok (String.ofList (name.map asciiLower), String.ofList value)

def readTftpOptions (fields : List (List UInt8)) (requestHasTerminalNul : Bool) :
    Except TftpRequestError (List (String × String)) :=
  if fields.length % 2 ≠ 0 && requestHasTerminalNul then
    .error (.option "TFTP RRQ 选项必须成对出现")
  else (fieldPairs fields).mapM readTftpOption

def checkTftpFileName (file : List UInt8) : Except TftpRequestError String :=
  match fromUtf8 file with
  | none => .error (.file "TFTP RRQ 文件名不是 UTF-8")
  | some name =>
    match validateTftpFileName (String.ofList name) with
    | .error error => .error (.file error)
    | .ok () => .ok (String.ofList name)

def checkTftpMode (mode : List UInt8) : Except TftpRequestError Unit :=
  match fromUtf8 mode with
  | none => .error (.illegal "TFTP RRQ 模式不是 UTF-8")
  | some mode =>
    if mode.map asciiLower ≠ "octet".toList then
      .error (.illegal "TFTP 仅支持 octet 二进制模式")
    else .ok ()

def parseTftpReadRequest (packet : List UInt8) : Except TftpRequestError TftpReadRequest :=
  if packet.length < 4 || packet.take 2 ≠ u16ToBeBytes tftpOpcodeRrq then
    .error (.illegal "收到的 TFTP 数据包不是 RRQ")
  else
    match takeTftpField (packet.drop 2) with
    | none => .error (.illegal "TFTP RRQ 缺少文件名终止符")
    | some (file, remaining) =>
      match takeTftpField remaining with
      | none => .error (.illegal "TFTP RRQ 缺少传输模式终止符")
      | some (mode, options) =>
        if file.isEmpty || mode.isEmpty then .error (.illegal "TFTP RRQ 缺少文件名或传输模式")
        else do
          let fileName ← checkTftpFileName file
          checkTftpMode mode
          let options ← readTftpOptions (requestOptionFields options) (packet.getLast? = some 0)
          return { fileName, options }

/-- The fields that count: those before the first empty one that their NUL has ended. -/
def fieldsOf (bytes : List UInt8) : List (List UInt8) :=
  (endedParts 0 bytes).takeWhile fun field => !field.isEmpty

def textOf (bytes : List UInt8) : List Char := (fromUtf8 bytes).getD []

def optionOf (pair : List UInt8 × List UInt8) : String × String :=
  (String.ofList ((textOf pair.1).map asciiLower), String.ofList (textOf pair.2))

/-- A read request with a file name, a mode and what is behind them. -/
structure TftpRequestIn (packet file mode tail : List UInt8) : Prop where
  shape : packet = [0, 1] ++ (file ++ 0 :: (mode ++ 0 :: tail))
  fileEnds : 0 ∉ file
  modeEnds : 0 ∉ mode
  fileName : ∃ name, fromUtf8 file = some name ∧
    validateTftpFileName (String.ofList name) = .ok ()
  octet : ∃ text, fromUtf8 mode = some text ∧ text.map asciiLower = "octet".toList
  paired : (fieldsOf tail).length % 2 = 0 ∨ packet.getLast? ≠ some 0
  readable : ∀ pair ∈ fieldPairs (fieldsOf tail),
    (fromUtf8 pair.1).isSome = true ∧ (fromUtf8 pair.2).isSome = true

theorem requestOptionFields_eq (bytes : List UInt8) : requestOptionFields bytes = fieldsOf bytes := by
  induction bytes using stream_induction (0 : UInt8) with
  | plain field clean =>
    rw [requestOptionFields]
    split
    next => rw [fieldsOf, endedParts_plain clean, takeWhile_nil]
    next field' rest' taken => cases (takeTftpField_none clean).symm.trans taken
  | ended field rest clean ih =>
    rw [requestOptionFields]
    split
    next none => cases (takeTftpField_append clean rest).symm.trans none
    next field' rest' taken =>
      have same := (takeTftpField_append clean rest).symm.trans taken
      obtain ⟨rfl, rfl⟩ := Prod.mk.inj (Option.some.inj same)
      rw [fieldsOf, endedParts_append_cons clean, takeWhile_cons, ← fieldsOf, ih]
      cases field <;> rfl

theorem mem_fieldPairs {fields : List (List UInt8)} {pair : List UInt8 × List UInt8}
    (mem : pair ∈ fieldPairs fields) : pair.1 ∈ fields ∧ pair.2 ∈ fields := by
  induction fields using fieldPairs.induct with
  | case1 name value fields ih =>
    rcases mem_cons.mp mem with rfl | later
    · simp
    · obtain ⟨first, second⟩ := ih later
      exact ⟨by simp [first], by simp [second]⟩
  | case2 fields short =>
    rw [fieldPairs] at mem
    · cases mem
    · exact short

theorem fieldsOf_filled {bytes field : List UInt8} (mem : field ∈ fieldsOf bytes) : field ≠ [] := by
  have kept := mem_takeWhile_imp mem
  intro empty
  rw [empty] at kept
  cases kept

theorem fromUtf8_filled {bytes : List UInt8} {text : List Char} (read : fromUtf8 bytes = some text)
    (filled : bytes ≠ []) : text ≠ [] := by
  unfold fromUtf8 at read
  dsimp only at read
  split at read
  next same =>
    rintro rfl
    rw [Option.some.inj read] at same
    exact filled same.symm
  next => cases read

theorem readTftpOption_iff {pair : List UInt8 × List UInt8} {option : String × String}
    (filled : pair.1 ≠ [] ∧ pair.2 ≠ []) : readTftpOption pair = .ok option ↔
      ((fromUtf8 pair.1).isSome = true ∧ (fromUtf8 pair.2).isSome = true) ∧
        option = optionOf pair := by
  obtain ⟨name, value⟩ := pair
  rw [readTftpOption, optionOf, textOf, textOf]
  dsimp only
  cases nameRead : fromUtf8 name with
  | none => simp
  | some nameText =>
    cases valueRead : fromUtf8 value with
    | none => simp
    | some valueText =>
      have first := isEmpty_eq_false_iff.mpr (fromUtf8_filled nameRead filled.1)
      have second := isEmpty_eq_false_iff.mpr (fromUtf8_filled valueRead filled.2)
      dsimp only
      rw [first, second, Bool.or_false, if_neg Bool.false_ne_true]
      exact ⟨fun done => ⟨⟨rfl, rfl⟩, (Except.ok.inj done).symm⟩, fun ⟨_, same⟩ => by rw [same]; rfl⟩

theorem mapM_readTftpOption {pairs : List (List UInt8 × List UInt8)}
    (filled : ∀ pair ∈ pairs, pair.1 ≠ [] ∧ pair.2 ≠ []) (options : List (String × String)) :
    pairs.mapM readTftpOption = .ok options ↔
      (∀ pair ∈ pairs, (fromUtf8 pair.1).isSome = true ∧ (fromUtf8 pair.2).isSome = true) ∧
        options = pairs.map optionOf := by
  induction pairs generalizing options with
  | nil =>
    rw [mapM_nil]
    exact ⟨fun done => ⟨nofun, (Except.ok.inj done).symm⟩, fun ⟨_, same⟩ => by rw [same]; rfl⟩
  | cons pair pairs ih =>
    obtain ⟨first, others⟩ := forall_mem_cons.mp filled
    rw [mapM_cons, forall_mem_cons, map_cons]
    constructor
    · intro done
      obtain ⟨option, read, done⟩ := except_bind_eq_ok done
      obtain ⟨rest, later, done⟩ := except_bind_eq_ok done
      obtain ⟨readable, same⟩ := (readTftpOption_iff first).mp read
      obtain ⟨readableRest, sameRest⟩ := (ih others rest).mp later
      refine ⟨⟨readable, readableRest⟩, ?_⟩
      rw [← Except.ok.inj done, same, sameRest]
    · rintro ⟨⟨readable, readableRest⟩, rfl⟩
      rw [(readTftpOption_iff first).mpr ⟨readable, rfl⟩]
      rw [(ih others _).mpr ⟨readableRest, rfl⟩]
      rfl

theorem readTftpOptions_iff {tail : List UInt8} {terminal : Bool} {options : List (String × String)} :
    readTftpOptions (fieldsOf tail) terminal = .ok options ↔
      ((fieldsOf tail).length % 2 = 0 ∨ terminal = false) ∧
        (∀ pair ∈ fieldPairs (fieldsOf tail),
          (fromUtf8 pair.1).isSome = true ∧ (fromUtf8 pair.2).isSome = true) ∧
        options = (fieldPairs (fieldsOf tail)).map optionOf := by
  have filled : ∀ pair ∈ fieldPairs (fieldsOf tail), pair.1 ≠ [] ∧ pair.2 ≠ [] := fun pair mem =>
    ⟨fieldsOf_filled (mem_fieldPairs mem).1, fieldsOf_filled (mem_fieldPairs mem).2⟩
  unfold readTftpOptions
  split
  next odd =>
    rw [Bool.and_eq_true, decide_eq_true_eq] at odd
    simp [odd]
  next paired =>
    rw [Bool.and_eq_true, decide_eq_true_eq, not_and, Bool.not_eq_true] at paired
    have even : (fieldsOf tail).length % 2 = 0 ∨ terminal = false :=
      Decidable.or_iff_not_imp_left.mpr paired
    rw [mapM_readTftpOption filled]
    exact ⟨fun ⟨readable, same⟩ => ⟨even, readable, same⟩, fun ⟨_, readable, same⟩ => ⟨readable, same⟩⟩

theorem checkTftpFileName_iff {file : List UInt8} {fileName : String} :
    checkTftpFileName file = .ok fileName ↔
      (∃ name, fromUtf8 file = some name ∧ validateTftpFileName (String.ofList name) = .ok ()) ∧
        fileName = String.ofList (textOf file) := by
  rw [checkTftpFileName, textOf]
  cases read : fromUtf8 file with
  | none => simp
  | some name =>
    cases valid : validateTftpFileName (String.ofList name) with
    | error error => simp [valid]
    | ok _ => simp [valid, eq_comm]

theorem checkTftpMode_iff {mode : List UInt8} : checkTftpMode mode = .ok () ↔
    ∃ text, fromUtf8 mode = some text ∧ text.map asciiLower = "octet".toList := by
  rw [checkTftpMode]
  cases read : fromUtf8 mode with
  | none => simp
  | some text => by_cases octet : text.map asciiLower = "octet".toList <;> simp [octet]

theorem fromUtf8_nil : fromUtf8 [] = some [] := by
  rw [fromUtf8, fromUtf8Lossy]
  rfl

theorem TftpRequestIn.filled {packet file mode tail : List UInt8}
    (request : TftpRequestIn packet file mode tail) : (file.isEmpty || mode.isEmpty) = false := by
  rw [Bool.or_eq_false_iff]
  constructor
  · obtain ⟨name, read, valid⟩ := request.fileName
    cases file with
    | nil =>
      obtain rfl : [] = name := Option.some.inj (fromUtf8_nil.symm.trans read)
      cases valid
    | cons byte file => rfl
  · obtain ⟨text, read, octet⟩ := request.octet
    cases mode with
    | nil =>
      obtain rfl : [] = text := Option.some.inj (fromUtf8_nil.symm.trans read)
      cases octet
    | cons byte mode => rfl

theorem parseTftpReadRequest_iff {packet : List UInt8} {request : TftpReadRequest} :
    parseTftpReadRequest packet = .ok request ↔
      ∃ file mode tail, TftpRequestIn packet file mode tail ∧
        request = { fileName := String.ofList (textOf file)
                    options := (fieldPairs (fieldsOf tail)).map optionOf } := by
  constructor
  · intro parsed
    unfold parseTftpReadRequest at parsed
    split at parsed
    next => cases parsed
    next header =>
      rw [Bool.or_eq_true, decide_eq_true_eq, decide_eq_true_eq, not_or, not_not] at header
      split at parsed
      next => cases parsed
      next file remaining fileTaken =>
        split at parsed
        next => cases parsed
        next mode tail modeTaken =>
          split at parsed
          next => cases parsed
          next filled =>
            obtain ⟨fileName, named, parsed⟩ := except_bind_eq_ok parsed
            obtain ⟨_, octet, parsed⟩ := except_bind_eq_ok parsed
            obtain ⟨options, read, parsed⟩ := except_bind_eq_ok parsed
            obtain ⟨fileSplit, fileEnds⟩ := takeTftpField_some fileTaken
            obtain ⟨modeSplit, modeEnds⟩ := takeTftpField_some modeTaken
            obtain ⟨valid, rfl⟩ := checkTftpFileName_iff.mp named
            rw [requestOptionFields_eq] at read
            obtain ⟨paired, readable, rfl⟩ := readTftpOptions_iff.mp read
            refine ⟨file, mode, tail, ⟨?_, fileEnds, modeEnds, valid, checkTftpMode_iff.mp octet,
              ?_, readable⟩, (Except.ok.inj parsed).symm⟩
            · rw [← modeSplit, ← fileSplit]
              exact (header.2 ▸ take_append_drop 2 packet).symm
            · rw [decide_eq_false_iff_not] at paired
              exact paired
  · rintro ⟨file, mode, tail, accepted, rfl⟩
    have opcode : packet.take 2 = u16ToBeBytes tftpOpcodeRrq := by
      rw [accepted.shape]
      rfl
    have long : ¬packet.length < 4 := by
      rw [accepted.shape]
      simp
      omega
    have rest : packet.drop 2 = file ++ 0 :: (mode ++ 0 :: tail) := by
      rw [accepted.shape]
      rfl
    have options := (@readTftpOptions_iff tail (decide (packet.getLast? = some 0)) _).mpr
      ⟨by rw [decide_eq_false_iff_not]; exact accepted.paired, accepted.readable, rfl⟩
    rw [parseTftpReadRequest, if_neg (by simp [opcode, long]), rest,
      takeTftpField_append accepted.fileEnds]
    dsimp only
    rw [takeTftpField_append accepted.modeEnds]
    dsimp only
    rw [accepted.filled, if_neg Bool.false_ne_true, requestOptionFields_eq,
      checkTftpFileName_iff.mpr ⟨accepted.fileName, rfl⟩,
      checkTftpMode_iff.mpr accepted.octet, options]
    rfl

section Negotiation

/-- What a client finds acknowledged in an OACK. -/
def acknowledged (packet : List UInt8) : List (List UInt8 × List UInt8) :=
  fieldPairs (fieldsOf (packet.drop 2))

def AskedOnce (name : String) (requested : List (String × String)) : Prop :=
  (requested.filter fun option => option.1 = name).length ≤ 1

/-- Why an option is acknowledged with that value. -/
def Granted (requested : List (String × String)) (total : Nat) (name value : String) : Prop :=
  ∃ wanted, (name, wanted) ∈ requested ∧
    ((name = "blksize" ∧ ∃ asked, parseUsize wanted.toList = some asked ∧ 8 ≤ asked ∧
        value = toString (min asked tftpMaxBlockSize)) ∨
      (name = "tsize" ∧ value = toString total) ∨
      (name = "timeout" ∧ ∃ asked, parseUsize wanted.toList = some asked ∧ 1 ≤ asked ∧
        asked ≤ 255 ∧ value = toString asked))

/-- What holds of the loop's variables behind the options that are done. -/
structure NegotiatedSoFar (done : List (String × String)) (total : Nat) (soFar : TftpAccepted) :
    Prop where
  granted : ∀ name value, (name, value) ∈ soFar.accepted → Granted done total name value
  blockSize : AskedOnce "blksize" done → ∀ value, ("blksize", value) ∈ soFar.accepted →
    value = toString soFar.blockSize
  retryTimeout : AskedOnce "timeout" done → ∀ value, ("timeout", value) ∈ soFar.accepted →
    value = toString soFar.retryTimeout

theorem Granted.more {done : List (String × String)} {total : Nat} {name value : String}
    (granted : Granted done total name value) (option : String × String) :
    Granted (done ++ [option]) total name value := by
  obtain ⟨wanted, mem, why⟩ := granted
  exact ⟨wanted, mem_append_left _ mem, why⟩

variable {done : List (String × String)}

theorem AskedOnce.before {name : String} {option : String × String}
    (once : AskedOnce name (done ++ [option])) : AskedOnce name done := by
  rw [AskedOnce, List.filter_append, length_append] at once
  exact Nat.le_trans (Nat.le_add_right _ _) once

variable {total : Nat}

theorem AskedOnce.new {name value wanted : String} (once : AskedOnce name (done ++ [(name, value)])) :
    ¬Granted done total name wanted := by
  rintro ⟨first, mem, -⟩
  have here : (name, first) ∈ done.filter fun option => option.1 = name := by
    rw [mem_filter]
    exact ⟨mem, decide_eq_true rfl⟩
  have some : 0 < (done.filter fun option => option.1 = name).length := length_pos_of_mem here
  have last : [(name, value)].filter (fun option => option.1 = name) = [(name, value)] := by simp
  rw [AskedOnce, List.filter_append, length_append, last, length_singleton] at once
  omega

variable {soFar after : TftpAccepted}

theorem acceptTftpOption_cases {name value : String}
    (accepted : acceptTftpOption total soFar (name, value) = .ok after) :
    (name = "blksize" ∧ ∃ asked, parseUsize value.toList = some asked ∧ 8 ≤ asked ∧
      after = { soFar with
        blockSize := min asked tftpMaxBlockSize
        accepted := soFar.accepted ++ [(name, toString (min asked tftpMaxBlockSize))] }) ∨
    (name = "tsize" ∧ after =
      { soFar with accepted := soFar.accepted ++ [(name, toString total)] }) ∨
    (name = "timeout" ∧ ∃ asked, parseUsize value.toList = some asked ∧ 1 ≤ asked ∧ asked ≤ 255 ∧
      after = { soFar with
        retryTimeout := asked
        accepted := soFar.accepted ++ [(name, toString asked)] }) ∨
    after = soFar := by
  unfold acceptTftpOption at accepted
  dsimp only at accepted
  split at accepted
  next blksize =>
    split at accepted
    next => cases accepted
    next asked read =>
      split at accepted
      next => cases accepted
      next enough =>
        exact .inl ⟨blksize, asked, read, Nat.le_of_not_lt enough, (Except.ok.inj accepted).symm⟩
  next =>
    split at accepted
    next tsize =>
      rw [Bool.and_eq_true, decide_eq_true_eq] at tsize
      exact .inr (.inl ⟨tsize.1, (Except.ok.inj accepted).symm⟩)
    next =>
      split at accepted
      next timeout =>
        split at accepted
        next => cases accepted
        next asked read =>
          split at accepted
          next => cases accepted
          next range =>
            rw [Bool.or_eq_true, decide_eq_true_eq, decide_eq_true_eq, not_or] at range
            exact .inr (.inr (.inl ⟨timeout, asked, read, Nat.pos_of_ne_zero range.1,
              Nat.le_of_not_lt range.2, (Except.ok.inj accepted).symm⟩))
      next => exact .inr (.inr (.inr (Except.ok.inj accepted).symm))

theorem NegotiatedSoFar.step (negotiated : NegotiatedSoFar done total soFar) {name value : String}
    (accepted : acceptTftpOption total soFar (name, value) = .ok after) :
    NegotiatedSoFar (done ++ [(name, value)]) total after := by
  have here : (name, value) ∈ done ++ [(name, value)] := by simp
  have before : ∀ n v, (n, v) ∈ soFar.accepted → Granted (done ++ [(name, value)]) total n v :=
    fun n v mem => (negotiated.granted n v mem).more _
  rcases acceptTftpOption_cases accepted with
    ⟨rfl, asked, read, enough, rfl⟩ | ⟨rfl, rfl⟩ | ⟨rfl, asked, read, low, high, rfl⟩ | rfl
  · refine ⟨fun n v mem => ?_, fun once v mem => ?_, fun once v mem => ?_⟩
    · rcases mem_append.mp mem with old | new
      · exact before n v old
      · obtain ⟨rfl, rfl⟩ := Prod.mk.inj (mem_singleton.mp new)
        exact ⟨value, here, .inl ⟨rfl, asked, read, enough, rfl⟩⟩
    · rcases mem_append.mp mem with old | new
      · exact absurd (negotiated.granted _ _ old) once.new
      · exact (Prod.mk.inj (mem_singleton.mp new)).2
    · rcases mem_append.mp mem with old | new
      · exact negotiated.retryTimeout once.before v old
      · exact absurd (Prod.mk.inj (mem_singleton.mp new)).1 (by decide)
  · refine ⟨fun n v mem => ?_, fun once v mem => ?_, fun once v mem => ?_⟩
    · rcases mem_append.mp mem with old | new
      · exact before n v old
      · obtain ⟨rfl, rfl⟩ := Prod.mk.inj (mem_singleton.mp new)
        exact ⟨value, here, .inr (.inl ⟨rfl, rfl⟩)⟩
    · rcases mem_append.mp mem with old | new
      · exact negotiated.blockSize once.before v old
      · exact absurd (Prod.mk.inj (mem_singleton.mp new)).1 (by decide)
    · rcases mem_append.mp mem with old | new
      · exact negotiated.retryTimeout once.before v old
      · exact absurd (Prod.mk.inj (mem_singleton.mp new)).1 (by decide)
  · refine ⟨fun n v mem => ?_, fun once v mem => ?_, fun once v mem => ?_⟩
    · rcases mem_append.mp mem with old | new
      · exact before n v old
      · obtain ⟨rfl, rfl⟩ := Prod.mk.inj (mem_singleton.mp new)
        exact ⟨value, here, .inr (.inr ⟨rfl, asked, read, low, high, rfl⟩)⟩
    · rcases mem_append.mp mem with old | new
      · exact negotiated.blockSize once.before v old
      · exact absurd (Prod.mk.inj (mem_singleton.mp new)).1 (by decide)
    · rcases mem_append.mp mem with old | new
      · exact absurd (negotiated.granted _ _ old) once.new
      · exact (Prod.mk.inj (mem_singleton.mp new)).2
  · exact ⟨before, fun once => negotiated.blockSize once.before,
      fun once => negotiated.retryTimeout once.before⟩

theorem NegotiatedSoFar.run (requested : List (String × String)) {done}
    (negotiated : NegotiatedSoFar done total soFar)
    (folded : requested.foldlM (acceptTftpOption total) soFar = .ok after) :
    NegotiatedSoFar (done ++ requested) total after := by
  induction requested generalizing done soFar with
  | nil =>
    cases folded
    rw [append_nil]
    exact negotiated
  | cons option requested ih =>
    obtain ⟨next, accepted, rest⟩ := except_bind_eq_ok folded
    have later := ih (negotiated.step accepted) rest
    rw [append_assoc, singleton_append] at later
    exact later

theorem toString_plain (n : Nat) : '\x00' ∉ (toString n).toList ∧ (toString n).toList ≠ [] := by
  have digits : (toString n).toList = Nat.toDigits 10 n := Nat.toList_repr
  rw [digits]
  exact ⟨fun mem => absurd (toDigits_isDigit mem) (by decide), Nat.toDigits_ne_nil⟩

def FieldText (text : String) : Prop := '\x00' ∉ text.toList ∧ text.toList ≠ []

theorem FieldText.bytes {text : String} (plain : FieldText text) :
    0 ∉ utf8Bytes text ∧ utf8Bytes text ≠ [] := by
  refine ⟨utf8Bytes_ne_zero plain.1, fun empty => plain.2 ?_⟩
  have read := fromUtf8_utf8Bytes text
  rw [empty] at read
  exact (Option.some.inj (fromUtf8_nil.symm.trans read)).symm

theorem Granted.plain {requested : List (String × String)} {total : Nat} {name value : String}
    (granted : Granted requested total name value) : FieldText name ∧ FieldText value := by
  obtain ⟨wanted, -, why⟩ := granted
  rcases why with ⟨rfl, asked, -, -, rfl⟩ | ⟨rfl, rfl⟩ | ⟨rfl, asked, -, -, -, rfl⟩
  · exact ⟨⟨by decide, by decide⟩, toString_plain _⟩
  · exact ⟨⟨by decide, by decide⟩, toString_plain _⟩
  · exact ⟨⟨by decide, by decide⟩, toString_plain _⟩

theorem fieldPairs_flatMap (accepted : List (String × String)) :
    fieldPairs (accepted.flatMap fun option => [utf8Bytes option.1, utf8Bytes option.2]) =
      accepted.map fun option => (utf8Bytes option.1, utf8Bytes option.2) := by
  induction accepted with
  | nil => rfl
  | cons option accepted ih => exact congrArg _ ih

theorem acknowledged_optionAck {accepted : List (String × String)}
    (plain : ∀ name value, (name, value) ∈ accepted → FieldText name ∧ FieldText value) :
    acknowledged (tftpOptionAck accepted) =
      accepted.map fun option => (utf8Bytes option.1, utf8Bytes option.2) := by
  have shape : (tftpOptionAck accepted).drop 2 =
      (accepted.flatMap fun option => [utf8Bytes option.1, utf8Bytes option.2]).flatMap (· ++ [0]) ++
        [] := by
    rw [append_nil, flatMap_assoc]
    refine flatMap_congr fun option _ => ?_
    simp
  have fields : ∀ field ∈ accepted.flatMap fun option => [utf8Bytes option.1, utf8Bytes option.2],
      0 ∉ field ∧ field ≠ [] := by
    intro field mem
    obtain ⟨⟨name, value⟩, inside, which⟩ := mem_flatMap.mp mem
    obtain ⟨first, second⟩ := plain name value inside
    rcases mem_cons.mp which with rfl | last
    · exact first.bytes
    · rw [mem_singleton.mp last]
      exact second.bytes
  rw [acknowledged, fieldsOf, shape, (endedParts_joined (fun field mem => (fields field mem).1) []).1,
    endedParts_plain not_mem_nil, append_nil, takeWhile_eq_self_iff.mpr ?_,
    fieldPairs_flatMap]
  intro field mem
  rw [isEmpty_eq_false_iff.mpr (fields field mem).2]
  rfl

theorem negotiated_options {requested : List (String × String)} {negotiation : TftpNegotiation}
    {packet : List UInt8} (negotiated : negotiateTftpOptions requested total = .ok negotiation)
    (sent : negotiation.optionAck = some packet) :
    ∃ accepted, NegotiatedSoFar requested total
        ⟨negotiation.blockSize, negotiation.retryTimeout, accepted⟩ ∧
      acknowledged packet =
        accepted.map fun option => (utf8Bytes option.1, utf8Bytes option.2) := by
  unfold negotiateTftpOptions at negotiated
  obtain ⟨after, folded, done⟩ := except_bind_eq_ok negotiated
  obtain rfl := Except.ok.inj done
  have start : NegotiatedSoFar [] total ⟨tftpDefaultBlockSize, tftpRetryTimeout, []⟩ :=
    ⟨nofun, fun _ => nofun, fun _ => nofun⟩
  have reached := start.run requested folded
  dsimp only at sent
  split at sent
  · cases sent
  · obtain rfl := Option.some.inj sent
    exact ⟨after.accepted, reached,
      acknowledged_optionAck fun name value mem => (reached.granted name value mem).plain⟩

end Negotiation

/-- What read requests are taken, and what an OACK says of the transfer that follows. -/
theorem tftp_requests_negotiated :
    (∀ packet, (∃ request, parseTftpReadRequest packet = .ok request) ↔
      ∃ file mode tail, TftpRequestIn packet file mode tail) ∧
    ∀ requested total negotiation packet,
      negotiateTftpOptions requested total = .ok negotiation → negotiation.optionAck = some packet →
      ∀ pair ∈ acknowledged packet, ∃ name value wanted,
        pair = (utf8Bytes name, utf8Bytes value) ∧ (name, wanted) ∈ requested ∧
        (name = "blksize" → ∃ size asked, value = toString size ∧
          parseUsize wanted.toList = some asked ∧ size ≤ asked ∧ 8 ≤ size ∧ size ≤ tftpMaxBlockSize) ∧
        (name = "blksize" → AskedOnce "blksize" requested → value = toString negotiation.blockSize) ∧
        (name = "timeout" → AskedOnce "timeout" requested →
          value = toString negotiation.retryTimeout) := by
  refine ⟨fun packet => ⟨fun ⟨request, parsed⟩ => ?_, fun ⟨file, mode, tail, accepted⟩ => ?_⟩,
    fun requested total negotiation packet negotiated sent pair mem => ?_⟩
  · obtain ⟨file, mode, tail, accepted, -⟩ := parseTftpReadRequest_iff.mp parsed
    exact ⟨file, mode, tail, accepted⟩
  · exact ⟨_, parseTftpReadRequest_iff.mpr ⟨file, mode, tail, accepted, rfl⟩⟩
  · obtain ⟨accepted, reached, read⟩ := negotiated_options negotiated sent
    rw [read] at mem
    obtain ⟨⟨name, value⟩, inside, rfl⟩ := mem_map.mp mem
    obtain ⟨wanted, asked, why⟩ := reached.granted name value inside
    refine ⟨name, value, wanted, rfl, asked, fun blksize => ?_, fun blksize once => ?_,
      fun timeout once => ?_⟩
    · rcases why with ⟨-, size, parsed, enough, granted⟩ | ⟨tsize, -⟩ | ⟨timeout, -⟩
      · exact ⟨min size tftpMaxBlockSize, size, granted, parsed, Nat.min_le_left _ _,
          Nat.le_min.mpr ⟨enough, by decide⟩, Nat.min_le_right _ _⟩
      · exact absurd (tsize.symm.trans blksize) (by decide)
      · exact absurd (timeout.symm.trans blksize) (by decide)
    · exact reached.blockSize once value (blksize ▸ inside)
    · exact reached.retryTimeout once value (timeout ▸ inside)

theorem tftp_blksize_granted :
    ∀ pair ∈ acknowledged (tftpOptionAck [("blksize", "1024")]), ∃ name value wanted,
      pair = (utf8Bytes name, utf8Bytes value) ∧ (name, wanted) ∈ [("blksize", "1024")] ∧
      (name = "blksize" → ∃ size asked, value = toString size ∧
        parseUsize wanted.toList = some asked ∧ size ≤ asked ∧ 8 ≤ size ∧ size ≤ tftpMaxBlockSize) ∧
      (name = "blksize" → AskedOnce "blksize" [("blksize", "1024")] → value = toString 1024) ∧
      (name = "timeout" → AskedOnce "timeout" [("blksize", "1024")] → value = toString 5) :=
  tftp_requests_negotiated.2 [("blksize", "1024")] 0
    ⟨1024, 5, some (tftpOptionAck [("blksize", "1024")])⟩ _ rfl rfl

/-- An option that is no text, in a pair and ended by its NUL. -/
def brokenOptionTail : List UInt8 := [255, 0, 49, 0]

def brokenOptionRequest : List UInt8 := [0, 1] ++ (utf8Bytes "a" ++ 0 :: (utf8Bytes "octet" ++ 0 :: brokenOptionTail))

theorem broken_option_unread : fromUtf8 [255] = none := by
  have lossy : fromUtf8Lossy [255] = [replacementChar] := by
    rw [fromUtf8Lossy, show utf8LossyChar 255 [] = (replacementChar, 0) from rfl, drop_nil,
      fromUtf8Lossy]
  rw [fromUtf8, lossy]
  rfl

/-- A block size asked for twice is acknowledged twice, and the first is not the one used; and a
request with a broken option is refused. -/
theorem blksize_acknowledged_twice :
    (¬∀ packet : List UInt8, (∃ request, parseTftpReadRequest packet = .ok request) ↔
      ∃ file mode tail, packet = [0, 1] ++ (file ++ 0 :: (mode ++ 0 :: tail)) ∧ 0 ∉ file ∧ 0 ∉ mode ∧
        (∃ name, fromUtf8 file = some name ∧ validateTftpFileName (String.ofList name) = .ok ()) ∧
        (∃ text, fromUtf8 mode = some text ∧ text.map asciiLower = "octet".toList) ∧
        ((fieldsOf tail).length % 2 = 0 ∨ packet.getLast? ≠ some 0)) ∧
    ¬∀ requested total negotiation packet,
      negotiateTftpOptions requested total = .ok negotiation → negotiation.optionAck = some packet →
        ∀ value, (utf8Bytes "blksize", utf8Bytes value) ∈ acknowledged packet →
          value = toString negotiation.blockSize := by
  constructor
  · intro exactly
    have taken := (exactly brokenOptionRequest).mpr
      ⟨utf8Bytes "a", utf8Bytes "octet", brokenOptionTail, rfl, by decide, by decide,
        ⟨_, fromUtf8_utf8Bytes "a", rfl⟩, ⟨_, fromUtf8_utf8Bytes "octet", by decide⟩,
        .inl (by decide)⟩
    obtain ⟨request, parsed⟩ := taken
    obtain ⟨file, mode, tail, accepted, -⟩ := parseTftpReadRequest_iff.mp parsed
    have rest : utf8Bytes "a" ++ 0 :: (utf8Bytes "octet" ++ 0 :: brokenOptionTail) =
        file ++ 0 :: (mode ++ 0 :: tail) := congrArg (List.drop 2) accepted.shape
    have first := takeTftpField_append accepted.fileEnds (mode ++ 0 :: tail)
    rw [← rest, takeTftpField_append (by decide)] at first
    obtain ⟨-, rest⟩ := Prod.mk.inj (Option.some.inj first)
    have second := takeTftpField_append accepted.modeEnds tail
    rw [← rest, takeTftpField_append (by decide)] at second
    obtain ⟨-, rfl⟩ := Prod.mk.inj (Option.some.inj second)
    have broken := (accepted.readable ([255], [49]) (by decide)).1
    rw [broken_option_unread] at broken
    cases broken
  · intro equal
    have negotiated : negotiateTftpOptions [("blksize", "1024"), ("blksize", "512")] 0 =
        .ok ⟨512, 5, some (tftpOptionAck [("blksize", "1024"), ("blksize", "512")])⟩ := rfl
    have read := @acknowledged_optionAck [("blksize", "1024"), ("blksize", "512")] fun name value mem => by
      rcases mem_cons.mp mem with same | mem
      · obtain ⟨rfl, rfl⟩ := Prod.mk.inj same
        exact ⟨⟨by decide, by decide⟩, by decide, by decide⟩
      · obtain ⟨rfl, rfl⟩ := Prod.mk.inj (mem_singleton.mp mem)
        exact ⟨⟨by decide, by decide⟩, by decide, by decide⟩
    have same := equal _ _ _ _ negotiated rfl "1024" (by rw [read]; exact mem_cons_self)
    exact absurd same (by decide)

end PortMate
