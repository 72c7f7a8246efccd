import PortMate.ScpDownload

namespace PortMate

open List Or ScpSurroundings

namespace SshBackendMessage

def bytes : SshBackendMessage → List UInt8
  | .data block => block
  | _ => []

def errorBytes : SshBackendMessage → List UInt8
  | .extendedData block _ => block
  | _ => []

/-- The messages that may stand between the bytes of a stream. -/
def passes : SshBackendMessage → Bool
  | .eof => false
  | .close => false
  | .exitStatus code => code = 0
  | _ => true

end SshBackendMessage

def channelBytes (messages : List SshBackendMessage) : List UInt8 := messages.flatMap (·.bytes)

def channelErrors (messages : List SshBackendMessage) : List UInt8 :=
  messages.flatMap (·.errorBytes)

/-- What comes behind the last byte: it begins with the end of the output, with the end of the
channel or with a status that is not zero, and has no bytes of its own. -/
structure ScpEnding (ending : List SshBackendMessage) : Prop where
  silent : channelBytes ending = []
  stops : ∀ message ∈ ending.head?, message.passes = false

/-- The input has so much of a stream left, cut in some way, with what comes behind it. A process
has one exit status: where it came between the bytes, no other one than zero comes behind them. -/
structure Carries (body : List SshBackendMessage) (stream : List UInt8)
    (ending : List SshBackendMessage) (input : ScpInput) : Prop where
  messages : input.messages = body ++ ending
  passing : ∀ message ∈ body, message.passes = true
  bytes : input.pending ++ channelBytes body = stream
  status : (∀ code, .exitStatus code ∉ body) ∨ ∀ code, .exitStatus code ∈ ending → code = 0
  errors : input.stderr.length + (channelErrors input.messages).length ≤ maxSshExecStderrBytes

section Bytes

variable {body ending : List SshBackendMessage} {stream : List UInt8}

theorem appendBoundedSshExecData_fits {buffer data : List UInt8} {maxBytes : Nat} {name : String}
    (fits : buffer.length + data.length ≤ maxBytes) (small : maxBytes < 2 ^ 64) :
    appendBoundedSshExecData buffer data maxBytes name = .ok (buffer ++ data) := by
  unfold appendBoundedSshExecData
  dsimp only
  rw [if_neg (by omega), if_neg (by omega)]

theorem stderr_fits {stderr data : List UInt8} {rest : List SshBackendMessage} {ext : UInt32}
    (room : stderr.length + (channelErrors (.extendedData data ext :: rest)).length ≤
      maxSshExecStderrBytes) :
    appendBoundedSshExecData stderr data maxSshExecStderrBytes "SCP download stderr" =
        .ok (stderr ++ data) ∧
      (stderr ++ data).length + (channelErrors rest).length ≤ maxSshExecStderrBytes := by
  have split : (channelErrors (.extendedData data ext :: rest)).length =
      data.length + (channelErrors rest).length := length_append
  refine ⟨appendBoundedSshExecData_fits (by omega) (by decide), ?_⟩
  rw [length_append]
  omega

theorem stderr_kept {stderr : List UInt8} {message : SshBackendMessage}
    {rest : List SshBackendMessage} (kept : message.errorBytes = [])
    (room : stderr.length + (channelErrors (message :: rest)).length ≤ maxSshExecStderrBytes) :
    stderr.length + (channelErrors rest).length ≤ maxSshExecStderrBytes := by
  have split : channelErrors (message :: rest) = message.errorBytes ++ channelErrors rest := rfl
  rwa [split, kept, nil_append] at room

theorem Carries.length_le {input : ScpInput} (carries : Carries body stream ending input) :
    input.pending.length ≤ stream.length := by
  rw [← carries.bytes, length_append]
  omega

theorem Carries.tail {message : SshBackendMessage} {pending stderr later : List UInt8}
    (carries : Carries (message :: body) stream ending
      ⟨pending, message :: (body ++ ending), stderr⟩)
    (errors : later.length + (channelErrors (body ++ ending)).length ≤ maxSshExecStderrBytes) :
    Carries body (stream.drop pending.length) ending ⟨message.bytes, body ++ ending, later⟩ where
  messages := rfl
  passing := fun next mem => carries.passing next (.tail _ mem)
  bytes := by
    have bytes : pending ++ (message.bytes ++ channelBytes body) = stream := carries.bytes
    rw [← bytes, drop_left]
  status := carries.status.imp_left fun none code mem => none code (.tail _ mem)
  errors := errors

theorem Carries.taken {front rest stderr : List UInt8}
    (carries : Carries body stream ending ⟨front ++ rest, body ++ ending, stderr⟩) :
    Carries body (stream.drop front.length) ending ⟨rest, body ++ ending, stderr⟩ where
  messages := rfl
  passing := carries.passing
  bytes := by
    rw [← carries.bytes, append_assoc, drop_left]
  status := carries.status
  errors := carries.errors

theorem scpNextByte_pending (stderr : List UInt8) (byte : UInt8) (pending : List UInt8)
    (messages : List SshBackendMessage) :
    scpNextByte stderr (byte :: pending) messages =
      .ok (some byte, ⟨pending, messages, stderr⟩) := by
  cases messages <;> rfl

theorem scpNextByte_passes {message : SshBackendMessage} (passes : message.passes = true)
    {stderr : List UInt8} {rest : List SshBackendMessage}
    (room : stderr.length + (channelErrors (message :: rest)).length ≤ maxSshExecStderrBytes) :
    ∃ later, scpNextByte stderr [] (message :: rest) = scpNextByte later message.bytes rest ∧
      later.length + (channelErrors rest).length ≤ maxSshExecStderrBytes := by
  cases message with
  | data data => exact ⟨stderr, rfl, stderr_kept rfl room⟩
  | extendedData data ext =>
    obtain ⟨added, fits⟩ := stderr_fits room
    refine ⟨stderr ++ data, ?_, fits⟩
    rw [scpNextByte, added]
    rfl
  | exitStatus code =>
    refine ⟨stderr, ?_, stderr_kept rfl room⟩
    rw [scpNextByte, if_neg (not_not.mpr (of_decide_eq_true passes))]
    rfl
  | exitSignal => exact ⟨stderr, rfl, stderr_kept rfl room⟩
  | failure => exact ⟨stderr, rfl, stderr_kept rfl room⟩
  | error => exact ⟨stderr, rfl, stderr_kept rfl room⟩
  | eof => cases passes
  | close => cases passes
  | other => exact ⟨stderr, rfl, stderr_kept rfl room⟩

theorem scpNextByte_stops {message : SshBackendMessage} (stops : message.passes = false)
    (stderr : List UInt8) (rest : List SshBackendMessage) :
    (∃ error, scpNextByte stderr [] (message :: rest) = .error error) ∨
      ∃ input, scpNextByte stderr [] (message :: rest) = .ok (none, input) := by
  cases message with
  | exitStatus code =>
    left
    rw [scpNextByte, if_pos (of_decide_eq_false stops)]
    exact ⟨_, rfl⟩
  | eof => exact inr ⟨_, rfl⟩
  | close => exact inr ⟨_, rfl⟩
  | data => cases stops
  | extendedData => cases stops
  | exitSignal => cases stops
  | failure => cases stops
  | error => cases stops
  | other => cases stops

theorem scpNextByte_cons (body : List SshBackendMessage) {byte : UInt8} {pending stderr : List UInt8}
    (carries : Carries body (byte :: stream) ending ⟨pending, body ++ ending, stderr⟩) :
    ∃ after input, scpNextByte stderr pending (body ++ ending) = .ok (some byte, input) ∧
      Carries after stream ending input := by
  induction body generalizing pending stderr with
  | nil =>
    cases pending with
    | nil => cases carries.bytes
    | cons first pending =>
      obtain ⟨rfl, -⟩ := List.cons.inj carries.bytes
      exact ⟨[], _, scpNextByte_pending _ _ _ _,
        @Carries.taken _ _ _ [first] pending stderr carries⟩
  | cons message body ih =>
    cases pending with
    | nil =>
      obtain ⟨later, passed, room⟩ := scpNextByte_passes (carries.passing _ (.head _)) carries.errors
      obtain ⟨after, input, read, left⟩ := ih (carries.tail room)
      exact ⟨after, input, passed.trans read, left⟩
    | cons first pending =>
      obtain ⟨rfl, -⟩ := List.cons.inj carries.bytes
      exact ⟨message :: body, _, scpNextByte_pending _ _ _ _,
        @Carries.taken _ _ _ [first] pending stderr carries⟩

theorem scpNextByte_nil (ends : ScpEnding ending) (body : List SshBackendMessage)
    {pending stderr : List UInt8}
    (carries : Carries body [] ending ⟨pending, body ++ ending, stderr⟩) :
    (∃ error, scpNextByte stderr pending (body ++ ending) = .error error) ∨
      ∃ input, scpNextByte stderr pending (body ++ ending) = .ok (none, input) := by
  induction body generalizing pending stderr with
  | nil =>
    obtain ⟨rfl, -⟩ := append_eq_nil_iff.mp carries.bytes
    cases ending with
    | nil => exact inr ⟨_, rfl⟩
    | cons message ending => exact scpNextByte_stops (ends.stops message rfl) stderr ending
  | cons message body ih =>
    obtain ⟨rfl, -⟩ := append_eq_nil_iff.mp carries.bytes
    obtain ⟨later, passed, room⟩ := @scpNextByte_passes message (carries.passing _ (.head _)) stderr
      (body ++ ending) carries.errors
    rw [cons_append, passed]
    exact ih (carries.tail room)

theorem nextByte_cons {byte : UInt8} {input : ScpInput}
    (carries : Carries body (byte :: stream) ending input) :
    ∃ after next, input.nextByte = .ok (some byte, next) ∧ Carries after stream ending next := by
  obtain ⟨pending, messages, stderr⟩ := input
  obtain rfl : messages = body ++ ending := carries.messages
  exact scpNextByte_cons body carries

theorem nextByte_nil (ends : ScpEnding ending) {input : ScpInput}
    (carries : Carries body [] ending input) :
    (∃ error, input.nextByte = .error error) ∨ ∃ next, input.nextByte = .ok (none, next) := by
  obtain ⟨pending, messages, stderr⟩ := input
  obtain rfl : messages = body ++ ending := carries.messages
  exact scpNextByte_nil ends body carries

end Bytes

/-- The line at the front of a stream, with room for so many bytes, and what follows it. -/
def scpLine : Nat → List UInt8 → Option (List UInt8 × List UInt8)
  | _, [] => none
  | room, byte :: stream =>
    if byte = 10 then some ([], stream)
    else
      match room with
      | 0 => none
      | room + 1 => (scpLine room stream).map fun (line, rest) => (byte :: line, rest)

/-- The size that the header of a stream announces, and what follows the header. -/
def scpHeader : List UInt8 → Option (Nat × List UInt8)
  | [] => none
  | first :: stream =>
    if first ≠ 67 then none
    else
      match scpLine maxScpProtocolLineBytes stream with
      | none => none
      | some (line, rest) =>
        (scpHeaderSize (lossyText line)).toOption.map fun size => (size, rest)

section Lines

variable {body ending : List SshBackendMessage} {stream : List UInt8} {input : ScpInput}

theorem scpReadLine_spec (ends : ScpEnding ending) (stage : String) (room : Nat)
    (bytes : List UInt8) (carries : Carries body stream ending input) :
    match scpLine room stream with
    | some (line, rest) => ∃ after next,
        scpReadLine stage room bytes input = .ok (bytes ++ line, next) ∧
          Carries after rest ending next
    | none => ∃ error, scpReadLine stage room bytes input = .error error := by
  induction stream generalizing room bytes body input with
  | nil =>
    unfold scpReadLine scpLine
    rcases nextByte_nil ends carries with ⟨error, failed⟩ | ⟨next, closed⟩
    · rw [failed]
      exact ⟨error, rfl⟩
    · rw [closed]
      exact ⟨_, rfl⟩
  | cons byte stream ih =>
    obtain ⟨after, next, read, left⟩ := nextByte_cons carries
    unfold scpReadLine scpLine
    rw [read]
    dsimp only
    by_cases newline : byte = 10
    · rw [if_pos newline, if_pos newline]
      exact ⟨after, next, by rw [append_nil], left⟩
    · rw [if_neg newline, if_neg newline]
      cases room with
      | zero => exact ⟨_, rfl⟩
      | succ room =>
        have later := ih room (bytes ++ [byte]) left
        dsimp only
        cases line : scpLine room stream with
        | none =>
          rw [line] at later
          exact later
        | some found =>
          rw [line] at later
          obtain ⟨more, last, got, carried⟩ := later
          rw [append_assoc, singleton_append] at got
          exact ⟨more, last, got, carried⟩

theorem readHeader_spec (ends : ScpEnding ending) (carries : Carries body stream ending input) :
    match scpHeader stream with
    | some (size, rest) => ∃ after next, input.readHeader = .ok (size, next) ∧
        Carries after rest ending next
    | none => ∃ error, input.readHeader = .error error := by
  unfold ScpInput.readHeader scpHeader
  cases stream with
  | nil =>
    rcases nextByte_nil ends carries with ⟨error, failed⟩ | ⟨next, closed⟩
    · rw [failed]
      exact ⟨error, rfl⟩
    · rw [closed]
      exact ⟨_, rfl⟩
  | cons first stream =>
    obtain ⟨after, next, read, left⟩ := nextByte_cons carries
    rw [read]
    dsimp only
    by_cases file : first = 67
    · subst file
      rw [if_neg (by decide), if_neg (by decide), if_neg (by decide)]
      unfold ScpInput.readLine
      have line := scpReadLine_spec ends "SCP 读取文件头" maxScpProtocolLineBytes [] left
      cases found : scpLine maxScpProtocolLineBytes stream with
      | none =>
        rw [found] at line
        obtain ⟨error, failed⟩ := line
        rw [failed]
        exact ⟨error, rfl⟩
      | some split =>
        obtain ⟨header, rest⟩ := split
        rw [found] at line
        obtain ⟨more, last, got, carried⟩ := line
        rw [got, nil_append]
        simp only [Except.map]
        cases scpHeaderSize (lossyText header) with
        | error error => exact ⟨error, rfl⟩
        | ok size => exact ⟨more, last, rfl, carried⟩
    · rw [if_pos file, if_pos file]
      by_cases remote : first = 1 ∨ first = 2
      · rw [if_pos remote]
        exact ⟨_, rfl⟩
      · rw [if_neg remote]
        exact ⟨_, rfl⟩

theorem scpWaitAck_spec (ends : ScpEnding ending) (stage : String)
    (carries : Carries body stream ending input) :
    (∃ rest after next, stream = 0 :: rest ∧ scpWaitAck input stage = .ok next ∧
        Carries after rest ending next) ∨
      (stream.head? ≠ some 0 ∧ ∃ error, scpWaitAck input stage = .error error) := by
  unfold scpWaitAck
  cases stream with
  | nil =>
    refine inr ⟨nofun, ?_⟩
    rcases nextByte_nil ends carries with ⟨error, failed⟩ | ⟨next, closed⟩
    · rw [failed]
      exact ⟨error, rfl⟩
    · rw [closed]
      exact ⟨_, rfl⟩
  | cons byte stream =>
    obtain ⟨after, next, read, left⟩ := nextByte_cons carries
    rw [read]
    dsimp only
    by_cases zero : byte = 0
    · subst zero
      exact inl ⟨stream, after, next, rfl, if_pos rfl, left⟩
    · refine inr ⟨fun same => zero (Option.some.inj same), ?_⟩
      rw [if_neg zero]
      by_cases remote : byte = 1 ∨ byte = 2
      · rw [if_pos remote]
        exact ⟨_, rfl⟩
      · rw [if_neg remote]
        exact ⟨_, rfl⟩

end Lines

section Body

variable {around : ScpSurroundings} {part : FilePlace} {size : Nat}
  {ending : List SshBackendMessage}

theorem scpReceiveBody_frame (messages : List SshBackendMessage) (received : Nat)
    (pending stderr : List UInt8) (files : Files) {path : FilePlace} (different : path ≠ part) :
    (scpReceiveBody around part size messages received pending stderr files).1 path =
      files path := by
  have written : ∀ files chunk received, (around.write files part received chunk).1 path =
      files path := by
    intro files chunk received
    unfold write
    split
    · exact appendFile_other _ different
    · exact appendFile_other _ different
  induction messages generalizing received pending stderr files with
  | nil =>
    have kept := written files (pending.take (size - received)) received
    unfold scpReceiveBody
    dsimp only
    split
    next error failed => rwa [failed] at kept
    next wrote =>
      rw [wrote] at kept
      split <;> exact kept
  | cons message messages ih =>
    have kept := written files (pending.take (size - received)) received
    unfold scpReceiveBody
    dsimp only
    split
    next error failed => rwa [failed] at kept
    next after _ wrote =>
      rw [wrote] at kept
      split
      · exact kept
      · cases message with
        | data data => exact (ih _ _ _ _).trans kept
        | extendedData data ext =>
          dsimp only
          split
          · exact kept
          · exact (ih _ _ _ _).trans kept
        | exitStatus code =>
          dsimp only
          split
          · exact kept
          · exact (ih _ _ _ _).trans kept
        | exitSignal => exact (ih _ _ _ _).trans kept
        | failure => exact (ih _ _ _ _).trans kept
        | error => exact (ih _ _ _ _).trans kept
        | eof => exact kept
        | close => exact kept
        | other => exact (ih _ _ _ _).trans kept

theorem scpReceiveBody_passes {message : SshBackendMessage} (passes : message.passes = true)
    {received : Nat} {pending stderr : List UInt8} {files written : Files}
    {rest : List SshBackendMessage}
    (wrote : around.write files part received (pending.take (size - received)) = (written, .ok ()))
    (more : ¬ size ≤ received + (pending.take (size - received)).length)
    (room : stderr.length + (channelErrors (message :: rest)).length ≤ maxSshExecStderrBytes) :
    ∃ later, scpReceiveBody around part size (message :: rest) received pending stderr files =
        scpReceiveBody around part size rest (received + (pending.take (size - received)).length)
          message.bytes later written ∧
      later.length + (channelErrors rest).length ≤ maxSshExecStderrBytes := by
  rw [scpReceiveBody, wrote]
  dsimp only
  rw [if_neg more]
  cases message with
  | data data => exact ⟨stderr, rfl, stderr_kept rfl room⟩
  | extendedData data ext =>
    obtain ⟨added, fits⟩ := stderr_fits room
    refine ⟨stderr ++ data, ?_, fits⟩
    dsimp only
    rw [added]
    rfl
  | exitStatus code =>
    refine ⟨stderr, ?_, stderr_kept rfl room⟩
    dsimp only
    rw [if_neg (not_not.mpr (of_decide_eq_true passes))]
    rfl
  | exitSignal => exact ⟨stderr, rfl, stderr_kept rfl room⟩
  | failure => exact ⟨stderr, rfl, stderr_kept rfl room⟩
  | error => exact ⟨stderr, rfl, stderr_kept rfl room⟩
  | eof => cases passes
  | close => cases passes
  | other => exact ⟨stderr, rfl, stderr_kept rfl room⟩

theorem scpReceiveBody_stops (ends : ScpEnding ending) {received : Nat}
    {pending stderr : List UInt8} {files written : Files}
    (wrote : around.write files part received (pending.take (size - received)) = (written, .ok ()))
    (more : ¬ size ≤ received + (pending.take (size - received)).length) :
    ∃ after error, scpReceiveBody around part size ending received pending stderr files =
      (after, .error error) := by
  rw [scpReceiveBody, wrote]
  dsimp only
  rw [if_neg more]
  cases ending with
  | nil => exact ⟨_, _, rfl⟩
  | cons message ending =>
    have stops := ends.stops message rfl
    cases message with
    | exitStatus code =>
      dsimp only
      rw [if_pos (of_decide_eq_false stops)]
      exact ⟨_, _, rfl⟩
    | eof => exact ⟨_, _, rfl⟩
    | close => exact ⟨_, _, rfl⟩
    | data => cases stops
    | extendedData => cases stops
    | exitSignal => cases stops
    | failure => cases stops
    | error => cases stops
    | other => cases stops

theorem write_ok {files : Files} {received : Nat} {chunk : List UInt8}
    (room : ∀ bytes ∈ around.room, received + chunk.length ≤ bytes) :
    around.write files part received chunk = (appendFile files part chunk, .ok ()) := by
  unfold write
  refine if_neg fun full => ?_
  obtain ⟨bytes, given, short⟩ := (Option.any_eq_true _ _).mp full
  have enough := room bytes given
  have less := of_decide_eq_true short
  omega

theorem write_wrote {files after : Files} {received : Nat} {chunk : List UInt8}
    (wrote : around.write files part received chunk = (after, .ok ())) :
    after = appendFile files part chunk ∧
      ∀ bytes ∈ around.room, received + chunk.length ≤ bytes := by
  unfold write at wrote
  split at wrote
  next => cases wrote
  next roomy =>
    refine ⟨(Prod.mk.inj wrote).1.symm, fun bytes given => ?_⟩
    have fits := (Option.any_eq_false _ _).mp (Bool.not_eq_true _ ▸ roomy) bytes given
    simpa using fits

theorem scpReceiveBody_pending {body : List SshBackendMessage} {stream pending stderr : List UInt8}
    {received : Nat} {files : Files} {content : List UInt8} {links : Nat}
    (carries : Carries body stream ending ⟨pending, body ++ ending, stderr⟩)
    (found : files part = some (.file content links)) (below : received ≤ size)
    (all : size - received ≤ pending.length) (room : ∀ bytes ∈ around.room, size ≤ bytes) :
    ∃ after input written,
      scpReceiveBody around part size (body ++ ending) received pending stderr files =
        (written, .ok input) ∧
      written part = some (.file (content ++ stream.take (size - received)) links) ∧
      Carries after (stream.drop (size - received)) ending input := by
  have length : (pending.take (size - received)).length = size - received := by
    rw [length_take]
    omega
  have wrote := @write_ok around part files received (pending.take (size - received))
    fun bytes given => by
      have fits := room bytes given
      omega
  have taken : stream.take (size - received) = pending.take (size - received) := by
    rw [← carries.bytes, take_append_of_le_length all]
  rw [← take_append_drop (size - received) pending] at carries
  have left := carries.taken
  rw [length] at left
  refine ⟨body, _, appendFile files part (pending.take (size - received)), ?_, ?_, left⟩
  · unfold scpReceiveBody
    dsimp only
    rw [wrote]
    dsimp only
    rw [if_pos (by omega)]
  · rw [taken]
    exact appendFile_self found _

theorem scpReceiveBody_full {messages : List SshBackendMessage} {received : Nat}
    {pending stderr : List UInt8} {files written : Files} {error : String}
    (failed : around.write files part received (pending.take (size - received)) =
      (written, .error error)) :
    scpReceiveBody around part size messages received pending stderr files =
      (written, .error error) := by
  unfold scpReceiveBody
  dsimp only
  rw [failed]

theorem body_unfinished {body messages : List SshBackendMessage} {stream pending stderr : List UInt8}
    {received : Nat} {files written : Files}
    (carries : Carries body stream ending ⟨pending, messages, stderr⟩)
    (wrote : around.write files part received (pending.take (size - received)) = (written, .ok ()))
    (short : stream.length < size - received ∨ ∃ bytes ∈ around.room, bytes < size) :
    ¬ size ≤ received + (pending.take (size - received)).length := by
  have fits := (write_wrote wrote).2
  have bytes : pending.length ≤ stream.length := carries.length_le
  rcases short with few | ⟨room, given, small⟩
  · rw [length_take]
    omega
  · have enough := fits room given
    omega

theorem scpReceiveBody_ok (body : List SshBackendMessage) {stream pending stderr : List UInt8}
    {received : Nat} {files : Files} {content : List UInt8} {links : Nat}
    (carries : Carries body stream ending ⟨pending, body ++ ending, stderr⟩)
    (found : files part = some (.file content links)) (below : received ≤ size)
    (enough : size - received ≤ stream.length) (room : ∀ bytes ∈ around.room, size ≤ bytes) :
    ∃ after input written,
      scpReceiveBody around part size (body ++ ending) received pending stderr files =
        (written, .ok input) ∧
      written part = some (.file (content ++ stream.take (size - received)) links) ∧
      Carries after (stream.drop (size - received)) ending input := by
  induction body generalizing stream pending stderr received files content with
  | nil =>
    have bytes : pending ++ [] = stream := carries.bytes
    rw [append_nil] at bytes
    exact scpReceiveBody_pending carries found below (bytes ▸ enough) room
  | cons message body ih =>
    by_cases all : size - received ≤ pending.length
    · exact scpReceiveBody_pending carries found below all room
    · have whole : pending.take (size - received) = pending := take_of_length_le (by omega)
      have wrote := @write_ok around part files received pending fun bytes given => by
        have fits := room bytes given
        omega
      obtain ⟨later, passed, errors⟩ := @scpReceiveBody_passes around part size message
        (carries.passing _ (.head _)) received pending stderr files _ (body ++ ending)
        (whole ▸ wrote) (by rw [whole]; omega) carries.errors
      rw [whole] at passed
      have left := carries.tail errors
      obtain ⟨after, input, written, run, grown, rest⟩ := @ih _ _ _ (received + pending.length) _ _
        left (appendFile_self found pending) (by omega) (by rw [length_drop]; omega)
      refine ⟨after, input, written, passed.trans run, ?_, ?_⟩
      · have split : stream.take (size - received) =
            pending ++ (stream.drop pending.length).take (size - (received + pending.length)) := by
          have front : stream.take pending.length = pending := by
            rw [← carries.bytes, take_left]
          have sum : size - received = pending.length + (size - (received + pending.length)) := by
            omega
          rw [sum, take_add, front]
        rw [split, ← append_assoc]
        exact grown
      · rw [drop_drop] at rest
        have sum : pending.length + (size - (received + pending.length)) = size - received := by
          omega
        rwa [sum] at rest

theorem scpReceiveBody_error (ends : ScpEnding ending) (body : List SshBackendMessage)
    {stream pending stderr : List UInt8} {received : Nat} {files : Files}
    (carries : Carries body stream ending ⟨pending, body ++ ending, stderr⟩)
    (short : stream.length < size - received ∨ ∃ bytes ∈ around.room, bytes < size) :
    ∃ written error,
      scpReceiveBody around part size (body ++ ending) received pending stderr files =
        (written, .error error) := by
  induction body generalizing stream pending stderr received files with
  | nil =>
    rcases wrote : around.write files part received (pending.take (size - received)) with
      ⟨written, ⟨error⟩ | ⟨⟩⟩
    · exact ⟨written, error, scpReceiveBody_full wrote⟩
    · exact scpReceiveBody_stops ends wrote (body_unfinished carries wrote short)
  | cons message body ih =>
    rcases wrote : around.write files part received (pending.take (size - received)) with
      ⟨written, ⟨error⟩ | ⟨⟩⟩
    · exact ⟨written, error, scpReceiveBody_full wrote⟩
    · have more := body_unfinished carries wrote short
      obtain ⟨later, passed, errors⟩ := @scpReceiveBody_passes around part size message
        (carries.passing _ (.head _)) received pending stderr files _ (body ++ ending) wrote more
        carries.errors
      have whole : pending.take (size - received) = pending := by
        rw [length_take] at more
        exact take_of_length_le (by omega)
      have bytes : pending.length ≤ stream.length := carries.length_le
      obtain ⟨after, error, failed⟩ := @ih _ _ _ (received + pending.length) written
        (carries.tail errors) (short.imp_left fun few => by rw [length_drop]; omega)
      rw [whole] at passed
      exact ⟨after, error, passed.trans failed⟩

end Body

end PortMate
