import PortMate.ScpSegments
import PortMate.Utf8Reading

namespace PortMate

open List Function Option Or ScpSurroundings

/-- The exit status that is known when a remote without more bytes is waited for. -/
def remoteStatus : List SshBackendMessage → Option UInt32 → Bool → Option UInt32
  | [], exitStatus, _ => exitStatus
  | .exitStatus code :: messages, _, eofReceived =>
    if eofReceived then some code else remoteStatus messages (some code) eofReceived
  | .eof :: messages, exitStatus, _ =>
    if exitStatus.isSome then exitStatus else remoteStatus messages exitStatus true
  | .close :: _, exitStatus, _ => exitStatus
  | _ :: messages, exitStatus, eofReceived => remoteStatus messages exitStatus eofReceived

/-- No status other than zero is known at the end. -/
def EndsWell (ending : List SshBackendMessage) : Prop :=
  (remoteStatus ending none false).filter (· ≠ 0) = none

section Completion

theorem scpCompletionStatus_eq (messages : List SshBackendMessage) {output stderr : List UInt8}
    (outputs : output.length + (channelBytes messages).length ≤ maxSshExecStdoutBytes)
    (errors : stderr.length + (channelErrors messages).length ≤ maxSshExecStderrBytes)
    (exitStatus : Option UInt32) (eofReceived : Bool) :
    ∃ output' stderr', scpCompletionStatus messages output stderr exitStatus eofReceived =
      .ok (remoteStatus messages exitStatus eofReceived, output', stderr') := by
  induction messages generalizing output stderr exitStatus eofReceived with
  | nil => exact ⟨output, stderr, rfl⟩
  | cons message messages ih =>
    have bytes : channelBytes (message :: messages) = message.bytes ++ channelBytes messages := rfl
    rw [bytes, length_append] at outputs
    have errorBytes : channelErrors (message :: messages) =
      message.errorBytes ++ channelErrors messages := rfl
    rw [errorBytes, length_append] at errors
    have outputs' : output.length + (channelBytes messages).length ≤ maxSshExecStdoutBytes := by
      omega
    have errors' : stderr.length + (channelErrors messages).length ≤ maxSshExecStderrBytes := by
      omega
    cases message with
    | data data =>
      change output.length + (data.length + _) ≤ _ at outputs
      have fits : output.length + data.length ≤ maxSshExecStdoutBytes := by omega
      rw [scpCompletionStatus, appendBoundedSshExecData_fits fits (by decide)]
      refine ih ?_ errors' _ _
      rw [length_append]
      omega
    | extendedData data ext =>
      change stderr.length + (data.length + _) ≤ _ at errors
      have fits : stderr.length + data.length ≤ maxSshExecStderrBytes := by omega
      rw [scpCompletionStatus, appendBoundedSshExecData_fits fits (by decide)]
      refine ih outputs' ?_ _ _
      rw [length_append]
      omega
    | exitStatus code =>
      unfold scpCompletionStatus remoteStatus
      split
      · exact ⟨output, stderr, rfl⟩
      · exact ih outputs' errors' _ _
    | eof =>
      unfold scpCompletionStatus remoteStatus
      split
      · exact ⟨output, stderr, rfl⟩
      · exact ih outputs' errors' _ _
    | close => exact ⟨output, stderr, rfl⟩
    | exitSignal => exact ih outputs' errors' _ _
    | failure => exact ih outputs' errors' _ _
    | error => exact ih outputs' errors' _ _
    | other => exact ih outputs' errors' _ _

theorem remoteStatus_body (body : List SshBackendMessage) (ending : List SshBackendMessage)
    (passing : ∀ message ∈ body, message.passes = true) {exitStatus : Option UInt32}
    (zero : exitStatus = none ∨ exitStatus = some 0) :
    ∃ known, (known = none ∨ known = some 0) ∧
      ((∀ code, .exitStatus code ∉ body) → known = exitStatus) ∧
      remoteStatus (body ++ ending) exitStatus false = remoteStatus ending known false := by
  induction body generalizing exitStatus with
  | nil => exact ⟨exitStatus, zero, fun _ => rfl, rfl⟩
  | cons message body ih =>
    have later := fun next mem => passing next (.tail _ mem)
    have step : remoteStatus (message :: (body ++ ending)) exitStatus false =
        remoteStatus (body ++ ending) exitStatus false → ∃ known, (known = none ∨ known = some 0) ∧
          ((∀ code, .exitStatus code ∉ message :: body) → known = exitStatus) ∧
          remoteStatus (message :: (body ++ ending)) exitStatus false =
            remoteStatus ending known false := by
      intro same
      obtain ⟨known, small, kept, run⟩ := ih later zero
      exact ⟨known, small, fun none => kept fun code mem => none code (.tail _ mem), same.trans run⟩
    cases message with
    | exitStatus code =>
      have code_zero : code = 0 := of_decide_eq_true (passing _ (.head _))
      obtain ⟨known, small, -, run⟩ := ih later (inr rfl)
      refine ⟨known, small, fun none => absurd (.head _) (none code), ?_⟩
      rw [cons_append, remoteStatus, if_neg Bool.false_ne_true, code_zero]
      exact run
    | eof => cases passing _ (.head _)
    | close => cases passing _ (.head _)
    | data => exact step rfl
    | extendedData => exact step rfl
    | exitSignal => exact step rfl
    | failure => exact step rfl
    | error => exact step rfl
    | other => exact step rfl

theorem remoteStatus_zero (ending : List SshBackendMessage)
    (zeros : ∀ code, .exitStatus code ∈ ending → code = 0) {exitStatus : Option UInt32}
    (zero : exitStatus = none ∨ exitStatus = some 0) (eofReceived : Bool) :
    remoteStatus ending exitStatus eofReceived = none ∨
      remoteStatus ending exitStatus eofReceived = some 0 := by
  induction ending generalizing exitStatus eofReceived with
  | nil => exact zero
  | cons message ending ih =>
    have later : ∀ code, .exitStatus code ∈ ending → code = 0 :=
      fun code mem => zeros code (.tail _ mem)
    cases message with
    | exitStatus code =>
      obtain rfl := zeros code (.head _)
      unfold remoteStatus
      split
      · exact inr rfl
      · exact ih later (inr rfl) _
    | eof =>
      unfold remoteStatus
      split
      · exact zero
      · exact ih later zero _
    | close => exact zero
    | data => exact ih later zero _
    | extendedData => exact ih later zero _
    | exitSignal => exact ih later zero _
    | failure => exact ih later zero _
    | error => exact ih later zero _
    | other => exact ih later zero _

variable {body ending : List SshBackendMessage} {stream : List UInt8} {input : ScpInput}

theorem scpWaitDownloadCompletion_spec (ends : ScpEnding ending)
    (carries : Carries body stream ending input) (few : stream.length ≤ maxSshExecStdoutBytes) :
    (EndsWell ending ∧ scpWaitDownloadCompletion input.messages input.stderr = .ok ()) ∨
      (¬ EndsWell ending ∧ ∃ error,
        scpWaitDownloadCompletion input.messages input.stderr = .error error) := by
  have bytes := congrArg List.length carries.bytes
  rw [length_append] at bytes
  have all : channelBytes input.messages = channelBytes body := by
    rw [carries.messages]
    unfold channelBytes
    rw [flatMap_append]
    exact (congrArg _ ends.silent).trans (append_nil _)
  obtain ⟨output, stderr, status⟩ := @scpCompletionStatus_eq input.messages [] input.stderr
    (by rw [all]; change 0 + _ ≤ _; omega) carries.errors none false
  obtain ⟨known, small, kept, run⟩ :=
    remoteStatus_body body ending carries.passing (inl rfl)
  have same : (remoteStatus input.messages none false).filter (· ≠ 0) =
      (remoteStatus ending none false).filter (· ≠ 0) := by
    rw [carries.messages, run]
    rcases carries.status with none | zeros
    · rw [kept none]
    · rcases remoteStatus_zero ending zeros small false with left | left <;>
        rcases remoteStatus_zero ending zeros (inl rfl) false with right | right <;>
          rw [left, right] <;> rfl
  unfold scpWaitDownloadCompletion
  rw [status]
  dsimp only
  rw [same]
  unfold EndsWell
  cases code : (remoteStatus ending none false).filter (· ≠ 0) with
  | none => exact inl ⟨rfl, rfl⟩
  | some code => exact inr ⟨nofun, _, rfl⟩

theorem attempt_none {around : ScpSurroundings} {step : ScpStep} (fine : around.fault step = none) :
    around.attempt step = .ok () := by
  unfold attempt
  rw [fine]

theorem attempt_some {around : ScpSurroundings} {step : ScpStep} (fails : around.fault step ≠ none) :
    ∃ error, around.attempt step = .error error := by
  unfold attempt
  cases given : around.fault step with
  | none => exact absurd given fails
  | some error => exact ⟨error, rfl⟩

/-- What has to hold from the end of the body on. -/
def Completes (around : ScpSurroundings) (stream : List UInt8) (ending : List SshBackendMessage) :
    Prop :=
  around.fault .flush = none ∧ stream.head? = some 0 ∧ around.fault .completionAck = none ∧
    EndsWell ending

theorem complete_spec (around : ScpSurroundings) (ends : ScpEnding ending)
    (carries : Carries body stream ending input)
    (few : ∀ rest, stream = 0 :: rest → rest.length ≤ maxSshExecStdoutBytes) :
    (Completes around stream ending ∧ around.complete input = .ok ()) ∨
      (¬ Completes around stream ending ∧ ∃ error, around.complete input = .error error) := by
  unfold complete Completes
  by_cases flushed : around.fault .flush = none
  · rw [attempt_none flushed]
    dsimp only
    rcases scpWaitAck_spec ends "SCP 等待完成确认" carries with
      ⟨rest, after, next, rfl, acked, left⟩ | ⟨other, error, failed⟩
    · rw [acked]
      dsimp only
      by_cases sent : around.fault .completionAck = none
      · rw [attempt_none sent]
        rcases scpWaitDownloadCompletion_spec ends left (few rest rfl) with
          ⟨well, done⟩ | ⟨ill, error, failed⟩
        · exact inl ⟨⟨flushed, rfl, sent, well⟩, done⟩
        · exact inr ⟨fun all => ill all.2.2.2, error, failed⟩
      · obtain ⟨error, failed⟩ := attempt_some sent
        rw [failed]
        exact inr ⟨fun all => sent all.2.2.1, error, rfl⟩
    · rw [failed]
      exact inr ⟨fun all => other all.2.1, error, rfl⟩
  · obtain ⟨error, failed⟩ := attempt_some flushed
    rw [failed]
    exact inr ⟨fun all => flushed all.1, error, rfl⟩

end Completion

/-- The file that a stream brings, and what follows its last zero byte. -/
def scpContent (stream : List UInt8) : Option (List UInt8 × List UInt8) :=
  (scpHeader stream).bind fun (size, body) =>
    if body[size]? = some 0 then some (body.take size, body.drop (size + 1)) else none

/-- What has to hold between the header and the body. -/
structure PartReady (around : ScpSurroundings) (files : Files) (target : FilePlace) : Prop where
  destination : around.destination = .ok target
  faults : around.fault .prepareTarget = none ∧ around.fault .resumeOffset = none ∧
    around.fault .createPart = none ∧ around.fault .headerAck = none
  entry : ∃ content, localTransferEntry files (localResumePartPath target) "本地断点文件" =
    .ok content

/-- What a download of so many bytes needs, apart from its stream. -/
structure ScpGranted (around : ScpSurroundings) (files : Files) (size : Nat) (target : FilePlace) :
    Prop where
  part : PartReady around files target
  faults : ∀ step, around.fault step = none
  room : ∀ bytes ∈ around.room, size ≤ bytes
  entry : ∃ content, localTransferEntry files target "本地目标文件" = .ok content

section Part

variable {around : ScpSurroundings}

theorem localTransferEntry_file {files : Files} {path : FilePlace} {content : List UInt8}
    (found : files path = some (.file content 1)) (label : String) :
    localTransferEntry files path label = .ok (some content) := by
  unfold localTransferEntry
  rw [found]
  rfl

theorem localResumeOffset_entry {files : Files} {part : FilePlace} {entry : Option (List UInt8)}
    (found : localTransferEntry files part "本地断点文件" = .ok entry) (size : Nat) :
    ∃ after old, localResumeOffset files part size = .ok (after, old) ∧
      ∃ left, localTransferEntry after part "本地断点文件" = .ok left := by
  unfold localResumeOffset
  rw [found]
  cases entry with
  | none => exact ⟨files, [], rfl, none, found⟩
  | some content =>
    dsimp only
    split
    · exact ⟨files, content, rfl, some content, found⟩
    · refine ⟨removeFile files part, [], rfl, none, ?_⟩
      unfold localTransferEntry removeFile
      rw [update_self]

theorem openPart_ready {files : Files} {target : FilePlace} (ready : PartReady around files target)
    (size : Nat) :
    ∃ after, around.openPart files size = (after, .ok target) ∧
      after (localResumePartPath target) = some (.file [] 1) := by
  obtain ⟨prepared, resumed, created, acked⟩ := ready.faults
  obtain ⟨entry, found⟩ := ready.entry
  obtain ⟨sized, old, offset, left, there⟩ := localResumeOffset_entry found size
  unfold ScpSurroundings.openPart
  rw [ready.destination]
  dsimp only
  rw [attempt_none prepared, attempt_none resumed]
  dsimp only
  rw [offset]
  dsimp only
  rw [attempt_none created]
  dsimp only
  unfold openLocalResumeWriter
  rw [there]
  dsimp only
  rw [if_pos (inl rfl), attempt_none acked]
  exact ⟨_, rfl, update_self _ _ _⟩

theorem ready_of_openPart {files after : Files} {target : FilePlace} {size : Nat}
    (opened : around.openPart files size = (after, .ok target)) :
    PartReady around files target := by
  have fine : ∀ {step : ScpStep}, around.attempt step = .ok () → around.fault step = none := by
    intro step attempted
    by_contra fails
    obtain ⟨error, failed⟩ := attempt_some fails
    cases failed.symm.trans attempted
  unfold ScpSurroundings.openPart at opened
  split at opened
  next => cases opened
  next place destination =>
    split at opened
    next => cases opened
    next => cases opened
    next prepared resumed =>
      split at opened
      next => cases opened
      next sized old offset =>
        split at opened
        next => cases opened
        next created =>
          split at opened
          next => cases opened
          next written _ =>
            cases acked : around.attempt .headerAck with
            | error error =>
              rw [acked] at opened
              cases opened
            | ok done =>
              rw [acked] at opened
              cases opened
              refine ⟨destination, ⟨fine prepared, fine resumed, fine created, fine acked⟩, ?_⟩
              unfold localResumeOffset at offset
              split at offset
              next => cases offset
              next entry => exact ⟨none, entry⟩
              next content entry => exact ⟨some content, entry⟩

theorem openPart_frame {files : Files} {size : Nat} {path : FilePlace}
    (other : ∀ target, around.destination = .ok target → path ≠ localResumePartPath target) :
    (around.openPart files size).1 path = files path := by
  unfold ScpSurroundings.openPart
  split
  next => rfl
  next target destination =>
    have different := other target destination
    split
    · rfl
    · rfl
    · split
      next => rfl
      next sized old offset =>
        have kept : sized path = files path := (localResumeOffset_ok offset).1 path different
        split
        · exact kept
        · split
          next => exact kept
          next written opened =>
            refine Eq.trans ?_ kept
            unfold openLocalResumeWriter at opened
            split at opened
            · cases opened
            · split at opened
              · rw [← Except.ok.inj opened]
                exact update_of_ne different _ _
              · rw [← Except.ok.inj opened]

end Part

section Download

variable {around : ScpSurroundings}

theorem scpDownload_failed {files : Files} {messages : List SshBackendMessage} {error : String}
    (failed : (scpDownload around files messages).2 = .error error) {path : FilePlace}
    (other : ∀ target, around.destination = .ok target → path ≠ localResumePartPath target) :
    (scpDownload around files messages).1 path = files path := by
  unfold scpDownload at failed ⊢
  split at failed
  · rfl
  · split at failed
    next => rfl
    next size input _ =>
      have opened := @openPart_frame around files size path other
      split at failed
      next after _ stuck =>
        rw [stuck] at opened
        exact opened
      next after target ready =>
        rw [ready] at opened
        have different := other target (ready_of_openPart ready).destination
        have body := @scpReceiveBody_frame around (localResumePartPath target) size input.messages 0
          input.pending input.stderr after path different
        replace body := body.trans opened
        split at failed
        next written _ stuck =>
          rw [stuck] at body
          exact body
        next written input _ received =>
          rw [received] at body
          split at failed
          · exact body
          · exact body
          · split at failed
            · exact body
            · cases failed

/-- The stream is that of a file that the download can take, and its end is that of a copy that
went through. -/
structure ScpDelivers (around : ScpSurroundings) (files : Files) (stream : List UInt8)
    (ending : List SshBackendMessage) (content : List UInt8) (target : FilePlace) : Prop where
  file : ∃ rest, scpContent stream = some (content, rest)
  granted : ScpGranted around files content.length target
  well : EndsWell ending

theorem finalize_ready {files : Files} {target : FilePlace} {content : List UInt8}
    {entry : Option (List UInt8)}
    (part : files (localResumePartPath target) = some (.file content 1))
    (found : localTransferEntry files target "本地目标文件" = .ok entry) :
    ∃ after, finalizeLocalResumeFile files (localResumePartPath target) target = .ok after ∧
      after target = some (.file content 1) := by
  cases finalized : finalizeLocalResumeFile files (localResumePartPath target) target with
  | error error =>
    unfold finalizeLocalResumeFile at finalized
    rw [localTransferEntry_file part] at finalized
    dsimp only at finalized
    rw [found] at finalized
    cases finalized
  | ok after =>
    have done := finalizeLocalResumeFile_ok (localResumePartPath_ne target) finalized
    exact ⟨after, rfl, done.1.trans part⟩

theorem entry_of_finalize {files after : Files} {part target : FilePlace}
    (finalized : finalizeLocalResumeFile files part target = .ok after) :
    ∃ entry, localTransferEntry files target "本地目标文件" = .ok entry := by
  unfold finalizeLocalResumeFile at finalized
  split at finalized
  · cases finalized
  · cases finalized
  · split at finalized
    next => cases finalized
    next entry found => exact ⟨entry, found⟩

theorem scpContent_some {stream file content rest : List UInt8} {size : Nat}
    (header : scpHeader stream = some (size, file))
    (found : scpContent stream = some (content, rest)) :
    size < file.length ∧ (file.drop size).head? = some 0 ∧ content = file.take size ∧
      content.length = size := by
  unfold scpContent at found
  rw [header, bind_some] at found
  dsimp only at found
  split at found
  next zero =>
    obtain ⟨rfl, -⟩ := Prod.mk.inj (Option.some.inj found)
    obtain ⟨inside, -⟩ := List.getElem?_eq_some_iff.mp zero
    refine ⟨inside, ?_, rfl, ?_⟩
    · rw [head?_drop]
      exact zero
    · rw [length_take]
      omega
  next => cases found

theorem scpContent_of_zero {stream file rest : List UInt8} {size : Nat}
    (header : scpHeader stream = some (size, file)) (zero : file.drop size = 0 :: rest) :
    scpContent stream = some (file.take size, rest) := by
  have here : file[size]? = some 0 := by
    rw [← head?_drop, zero]
    rfl
  have after : file.drop (size + 1) = rest := by
    rw [← drop_drop, zero]
    rfl
  unfold scpContent
  rw [header, bind_some]
  dsimp only
  rw [if_pos here, after]

/-- The bytes and the end decide whether a download goes through, and what it leaves. -/
theorem scpDownload_spec {files : Files} {body ending : List SshBackendMessage}
    {stream : List UInt8} {messages : List SshBackendMessage} (ends : ScpEnding ending)
    (carries : Carries body stream ending ⟨[], messages, []⟩)
    (few : ∀ content rest, scpContent stream = some (content, rest) →
      rest.length ≤ maxSshExecStdoutBytes) :
    (∃ content target after, ScpDelivers around files stream ending content target ∧
        scpDownload around files messages = (after, .ok content.length) ∧
        after target = some (.file content 1)) ∨
      ((∀ content target, ¬ ScpDelivers around files stream ending content target) ∧
        ∃ after error, scpDownload around files messages = (after, .error error)) := by
  unfold scpDownload
  by_cases begun : around.fault .initialAck = none
  swap
  · obtain ⟨error, failed⟩ := attempt_some begun
    rw [failed]
    exact inr ⟨fun _ _ delivers => begun (delivers.granted.faults _), _, _, rfl⟩
  rw [attempt_none begun]
  dsimp only
  have header := readHeader_spec ends carries
  cases read : scpHeader stream with
  | none =>
    rw [read] at header
    obtain ⟨error, failed⟩ := header
    rw [failed]
    refine inr ⟨fun content target delivers => ?_, _, _, rfl⟩
    obtain ⟨rest, found⟩ := delivers.file
    unfold scpContent at found
    rw [read] at found
    cases found
  | some parsed =>
    obtain ⟨size, file⟩ := parsed
    rw [read] at header
    obtain ⟨later, input, got, left⟩ := header
    rw [got]
    dsimp only
    by_cases ready : ∃ target, PartReady around files target
    swap
    · rcases opened : around.openPart files size with ⟨after, error | target⟩
      · exact inr ⟨fun _ target delivers => ready ⟨target, delivers.granted.part⟩, _, _, rfl⟩
      · exact absurd ⟨target, ready_of_openPart opened⟩ ready
    obtain ⟨target, ready⟩ := ready
    obtain ⟨made, opened, empty⟩ := openPart_ready ready size
    rw [opened]
    dsimp only
    obtain ⟨pending, rest, stderr⟩ := input
    obtain rfl : rest = later ++ ending := left.messages
    by_cases enough : size ≤ file.length ∧ ∀ bytes ∈ around.room, size ≤ bytes
    swap
    · have short : file.length < size - 0 ∨ ∃ bytes ∈ around.room, bytes < size := by
        by_contra neither
        rw [not_or] at neither
        refine enough ⟨by omega, fun bytes given => ?_⟩
        by_contra small
        exact neither.2 ⟨bytes, given, Nat.lt_of_not_le small⟩
      obtain ⟨written, error, failed⟩ := @scpReceiveBody_error around (localResumePartPath target)
        size ending ends later file pending stderr 0 made left short
      rw [failed]
      refine inr ⟨fun content place delivers => enough ?_, _, _, rfl⟩
      obtain ⟨rest, found⟩ := delivers.file
      obtain ⟨inside, -, -, length⟩ := scpContent_some read found
      exact ⟨by omega, length ▸ delivers.granted.room⟩
    obtain ⟨body', input, written, received, grown, remaining⟩ := @scpReceiveBody_ok around
      (localResumePartPath target) size ending later file pending stderr 0 made [] 1 left empty
      (Nat.zero_le _) enough.1 enough.2
    rw [Nat.sub_zero, nil_append] at grown
    rw [Nat.sub_zero] at remaining
    rw [received]
    dsimp only
    have kept : written target = files target := by
      have opening := @openPart_frame around files size target fun place destination => by
        cases ready.destination.symm.trans destination
        exact localResumePartPath_ne target
      have loop := @scpReceiveBody_frame around (localResumePartPath target) size (later ++ ending)
        0 pending stderr made target (localResumePartPath_ne target)
      rw [opened] at opening
      rw [received] at loop
      exact loop.trans opening
    have entry_eq : localTransferEntry written target "本地目标文件" =
        localTransferEntry files target "本地目标文件" := by
      unfold localTransferEntry
      rw [kept]
    rcases complete_spec around ends remaining fun rest zero =>
        few _ rest (scpContent_of_zero read zero) with ⟨completes, done⟩ | ⟨fails, error, failed⟩
    swap
    · rw [failed]
      refine inr ⟨fun content place delivers => fails ?_, _, _, rfl⟩
      obtain ⟨rest, found⟩ := delivers.file
      obtain ⟨-, zero, -, -⟩ := scpContent_some read found
      exact ⟨delivers.granted.faults _, zero, delivers.granted.faults _, delivers.well⟩
    rw [done]
    by_cases fine : around.fault .finalize = none
    swap
    · obtain ⟨error, failed⟩ := attempt_some fine
      rw [failed]
      exact inr ⟨fun _ _ delivers => fine (delivers.granted.faults _), _, _, rfl⟩
    rw [attempt_none fine]
    dsimp only
    cases entry : localTransferEntry files target "本地目标文件" with
    | error error =>
      right
      constructor
      · intro content place delivers
        cases ready.destination.symm.trans delivers.granted.part.destination
        obtain ⟨old, there⟩ := delivers.granted.entry
        cases entry.symm.trans there
      · cases finalized : finalizeLocalResumeFile written (localResumePartPath target) target with
        | error error => exact ⟨_, _, rfl⟩
        | ok after =>
          obtain ⟨old, there⟩ := entry_of_finalize finalized
          cases (entry_eq.trans entry).symm.trans there
    | ok old =>
      left
      obtain ⟨after, finalized, shown⟩ := finalize_ready grown (entry_eq.trans entry)
      obtain ⟨rest, zero⟩ : ∃ rest, file.drop size = 0 :: rest := by
        cases dropped : file.drop size with
        | nil =>
          have head := completes.2.1
          rw [dropped] at head
          cases head
        | cons first rest =>
          have head := completes.2.1
          rw [dropped] at head
          exact ⟨rest, congrArg (· :: rest) (Option.some.inj head)⟩
      have length : (file.take size).length = size := by
        rw [length_take]
        omega
      refine ⟨file.take size, target, after, ⟨⟨rest, scpContent_of_zero read zero⟩, ?_,
        completes.2.2.2⟩, ?_, shown⟩
      · refine ⟨ready, fun step => ?_, length.symm ▸ enough.2, old, entry⟩
        obtain ⟨prepared, resumed, created, acked⟩ := ready.faults
        cases step with
        | initialAck => exact begun
        | prepareTarget => exact prepared
        | resumeOffset => exact resumed
        | createPart => exact created
        | headerAck => exact acked
        | flush => exact completes.1
        | completionAck => exact completes.2.2.1
        | finalize => exact fine
      · rw [finalized, length]

theorem scpLine_some {room : Nat} {stream line rest : List UInt8}
    (found : scpLine room stream = some (line, rest)) :
    stream = line ++ 10 :: rest ∧ 10 ∉ line ∧ line.length ≤ room := by
  induction stream generalizing room line with
  | nil =>
    unfold scpLine at found
    cases found
  | cons byte stream ih =>
    unfold scpLine at found
    split at found
    next newline =>
      obtain ⟨rfl, rfl⟩ := Prod.mk.inj (Option.some.inj found)
      exact ⟨congrArg (· :: stream) newline, not_mem_nil, Nat.zero_le _⟩
    next other =>
      cases room with
      | zero => cases found
      | succ room =>
        obtain ⟨⟨line', rest'⟩, split, same⟩ := map_eq_some_iff.mp found
        obtain ⟨rfl, rfl⟩ := Prod.mk.inj same
        obtain ⟨rfl, none, short⟩ := ih split
        refine ⟨rfl, ?_, Nat.succ_le_succ short⟩
        rw [mem_cons, not_or]
        exact ⟨Ne.symm other, none⟩

theorem scpLine_line {room : Nat} {line rest : List UInt8} (none : 10 ∉ line)
    (short : line.length ≤ room) : scpLine room (line ++ 10 :: rest) = some (line, rest) := by
  induction line generalizing room with
  | nil =>
    unfold scpLine
    exact if_pos rfl
  | cons byte line ih =>
    rw [mem_cons, not_or] at none
    cases room with
    | zero => cases short
    | succ room =>
      rw [cons_append, scpLine, if_neg (Ne.symm none.1), ih none.2 (Nat.le_of_succ_le_succ short)]
      rfl

theorem scpContent_shape {stream content rest : List UInt8}
    (found : scpContent stream = some (content, rest)) :
    ∃ header, stream = 67 :: (header ++ 10 :: (content ++ 0 :: rest)) ∧ 10 ∉ header ∧
      header.length ≤ maxScpProtocolLineBytes ∧
      scpHeaderSize (lossyText header) = .ok content.length := by
  cases read : scpHeader stream with
  | none =>
    unfold scpContent at found
    rw [read] at found
    cases found
  | some parsed =>
    obtain ⟨size, file⟩ := parsed
    obtain ⟨inside, zero, rfl, length⟩ := scpContent_some read found
    unfold scpHeader at read
    cases stream with
    | nil => cases read
    | cons first stream =>
      dsimp only at read
      split at read
      next => cases read
      next letter =>
        split at read
        next => cases read
        next header body line =>
          obtain ⟨announced, size_ok, same⟩ := map_eq_some_iff.mp read
          obtain ⟨rfl, rfl⟩ := Prod.mk.inj same
          obtain ⟨rfl, none, short⟩ := scpLine_some line
          have split : body.take announced ++ 0 :: rest = body := by
            cases dropped : body.drop announced with
            | nil =>
              rw [dropped] at zero
              cases zero
            | cons byte more =>
              rw [dropped] at zero
              obtain rfl : byte = 0 := Option.some.inj zero
              obtain ⟨-, rfl⟩ := Prod.mk.inj
                (Option.some.inj ((scpContent_of_zero (by
                  unfold scpHeader
                  dsimp only
                  rw [if_neg letter, line]
                  exact read) dropped).symm.trans found))
              rw [← dropped, take_append_drop]
          refine ⟨header, ?_, none, short, ?_⟩
          · rw [split]
            exact congrArg (· :: _) (not_not.mp letter)
          · rw [length]
            cases sized : scpHeaderSize (lossyText header) with
            | error error =>
              rw [sized] at size_ok
              cases size_ok
            | ok size =>
              rw [sized] at size_ok
              exact congrArg Except.ok (Option.some.inj size_ok)

/-- The stream arrives in messages that are cut somehow, with standard error and zero statuses
between them. -/
def ScpCut (stream : List UInt8) (ending messages : List SshBackendMessage) : Prop :=
  ∃ body, Carries body stream ending ⟨[], messages, []⟩

/-- The files are the same up to what an older part, which is a regular file where it is there,
contains. -/
def SameButPart (around : ScpSurroundings) (files others : Files) : Prop :=
  ∀ target, around.destination = .ok target →
    (∀ path, path ≠ localResumePartPath target → files path = others path) ∧
    (∃ old, localTransferEntry files (localResumePartPath target) "本地断点文件" = .ok old) ∧
    ∃ old, localTransferEntry others (localResumePartPath target) "本地断点文件" = .ok old

theorem ScpDelivers.others {files others : Files} {stream content : List UInt8}
    {ending : List SshBackendMessage} {target : FilePlace}
    (delivers : ScpDelivers around files stream ending content target)
    (same : ∀ path, path ≠ localResumePartPath target → files path = others path)
    (part : ∃ old, localTransferEntry others (localResumePartPath target) "本地断点文件" = .ok old) :
    ScpDelivers around others stream ending content target := by
  obtain ⟨old, entry⟩ := delivers.granted.entry
  refine ⟨delivers.file, ⟨⟨delivers.granted.part.destination, delivers.granted.part.faults, part⟩,
    delivers.granted.faults, delivers.granted.room, old, ?_⟩, delivers.well⟩
  unfold localTransferEntry at entry ⊢
  rwa [← same target (localResumePartPath_ne target)]

theorem scpDownload_again {files others : Files} {stream : List UInt8}
    {ending first second : List SshBackendMessage} (ends : ScpEnding ending)
    (few : ∀ content rest, scpContent stream = some (content, rest) →
      rest.length ≤ maxSshExecStdoutBytes)
    (cut : ScpCut stream ending first) (other : ScpCut stream ending second)
    (same : SameButPart around files others) {size : Nat}
    (done : (scpDownload around files first).2 = .ok size) :
    (scpDownload around others second).2 = .ok size := by
  obtain ⟨body, carries⟩ := cut
  obtain ⟨another, carried⟩ := other
  rcases scpDownload_spec ends carries few with
    ⟨content, target, after, delivers, run, -⟩ | ⟨-, after, error, failed⟩
  swap
  · rw [failed] at done
    cases done
  rw [run] at done
  obtain rfl := Except.ok.inj done
  obtain ⟨elsewhere, -, part⟩ := same target delivers.granted.part.destination
  have moved := delivers.others elsewhere part
  rcases scpDownload_spec ends carried few with
    ⟨content', target', after', delivers', run', -⟩ | ⟨none, -⟩
  · obtain ⟨rest, found⟩ := delivers.file
    obtain ⟨rest', found'⟩ := delivers'.file
    obtain ⟨rfl, -⟩ := Prod.mk.inj (Option.some.inj (found.symm.trans found'))
    rw [run']
  · exact absurd moved (none content target)

/-- A download goes through for every cut of its stream or for none, and then the stream was that of
a file, which the target consists of, whatever an older part contained; a download that fails leaves
the target as it was, whatever arrived. -/
theorem scp_download_uncut (around : ScpSurroundings) {stream : List UInt8}
    {ending : List SshBackendMessage} (ends : ScpEnding ending)
    (few : ∀ content rest, scpContent stream = some (content, rest) →
      rest.length ≤ maxSshExecStdoutBytes) :
    (∀ first second files others, ScpCut stream ending first → ScpCut stream ending second →
      SameButPart around files others → ∀ size,
        ((scpDownload around files first).2 = .ok size ↔
          (scpDownload around others second).2 = .ok size)) ∧
      (∀ messages files size, ScpCut stream ending messages →
        (scpDownload around files messages).2 = .ok size →
          ∃ header content rest target,
            stream = 67 :: (header ++ 10 :: (content ++ 0 :: rest)) ∧ 10 ∉ header ∧
            header.length ≤ maxScpProtocolLineBytes ∧
            scpHeaderSize (lossyText header) = .ok content.length ∧ size = content.length ∧
            around.destination = .ok target ∧
            (scpDownload around files messages).1 target = some (.file content 1)) ∧
      ∀ messages files error, (scpDownload around files messages).2 = .error error →
        ∀ target, around.destination = .ok target →
          (scpDownload around files messages).1 target = files target := by
  refine ⟨fun first second files others cut other same size => ⟨scpDownload_again ends few cut other
    same, scpDownload_again ends few other cut ?_⟩, ?_, ?_⟩
  · intro target destination
    obtain ⟨elsewhere, part, another⟩ := same target destination
    exact ⟨fun path different => (elsewhere path different).symm, another, part⟩
  · intro messages files size cut done
    obtain ⟨body, carries⟩ := cut
    rcases scpDownload_spec ends carries few with
      ⟨content, target, after, delivers, run, shown⟩ | ⟨-, after, error, failed⟩
    · obtain ⟨rest, found⟩ := delivers.file
      obtain ⟨header, shape, line, short, announced⟩ := scpContent_shape found
      rw [run] at done ⊢
      exact ⟨header, content, rest, target, shape, line, short, announced,
        (Except.ok.inj done).symm, delivers.granted.part.destination, shown⟩
    · rw [failed] at done
      cases done
  · intro messages files error failed target destination
    refine scpDownload_failed failed fun place given => ?_
    cases destination.symm.trans given
    exact localResumePartPath_ne target

end Download

section Sample

def easyDesktop : ScpSurroundings :=
  { destination := .ok ⟨["home"], "note"⟩, fault := fun _ => none, room := none }

def noteStream : List UInt8 := 67 :: (utf8Bytes "0644 2 note" ++ [10, 104, 105, 0])

def noteEnding : List SshBackendMessage := [.eof, .exitStatus 0, .close]

theorem noteStream_content : scpContent noteStream = some ([104, 105], []) := by
  have header := @scpLine_line maxScpProtocolLineBytes (utf8Bytes "0644 2 note") [104, 105, 0]
    (by decide) (by decide)
  have size : scpHeaderSize (lossyText (utf8Bytes "0644 2 note")) = .ok 2 := by
    unfold lossyText
    rw [fromUtf8Lossy_utf8Bytes, String.ofList_toList]
    rfl
  have stream : utf8Bytes "0644 2 note" ++ [10, 104, 105, 0] =
      utf8Bytes "0644 2 note" ++ 10 :: [104, 105, 0] := rfl
  unfold scpContent noteStream scpHeader
  dsimp only
  rw [if_neg (by decide), stream, header]
  dsimp only
  rw [size]
  rfl

/-- The desktop without files, or with a part that was left. -/
def leftPart (part : Option FileNode) : Files := fun path =>
  if path = ⟨["home"], "note.portmate-part"⟩ then part else none

theorem noteStream_cut {body : List SshBackendMessage}
    (passing : ∀ message ∈ body, message.passes = true) (bytes : channelBytes body = noteStream)
    (errors : (channelErrors (body ++ noteEnding)).length ≤ maxSshExecStderrBytes) :
    ScpCut noteStream noteEnding (body ++ noteEnding) := by
  refine ⟨body, rfl, passing, bytes, inr fun code mem => ?_, ?_⟩
  · simpa [noteEnding] using mem
  · change 0 + _ ≤ _
    rwa [Nat.zero_add]

/-- The same file over an older part, in one message and in several. -/
theorem note_downloaded :
    (scpDownload easyDesktop (leftPart (some (.file [1, 2, 3] 1)))
        ([.data noteStream] ++ noteEnding)).2 = .ok 2 ∧
      (scpDownload easyDesktop (leftPart none) ([.data (noteStream.take 5), .extendedData [33] 1,
        .exitStatus 0, .data (noteStream.drop 5)] ++ noteEnding)).2 = .ok 2 := by
  have ends : ScpEnding noteEnding := by
    refine ⟨rfl, fun message given => ?_⟩
    cases Option.some.inj given
    rfl
  have few : ∀ content rest, scpContent noteStream = some (content, rest) →
      rest.length ≤ maxSshExecStdoutBytes := by
    intro content rest found
    cases noteStream_content.symm.trans found
    exact Nat.zero_le _
  have whole : ScpCut noteStream noteEnding ([.data noteStream] ++ noteEnding) :=
    noteStream_cut (by decide) (by decide) (by decide)
  have pieces := @noteStream_cut [.data (noteStream.take 5), .extendedData [33] 1,
    .exitStatus 0, .data (noteStream.drop 5)] (by decide) (by decide) (by decide)
  have same : SameButPart easyDesktop (leftPart (some (.file [1, 2, 3] 1))) (leftPart none) := by
    intro target destination
    cases destination
    refine ⟨fun path different => ?_, ⟨some [1, 2, 3], by decide⟩, none, by decide⟩
    exact (if_neg different).trans (if_neg different).symm
  obtain ⟨cuts, -, -⟩ := scp_download_uncut easyDesktop ends few
  suffices first : (scpDownload easyDesktop (leftPart (some (.file [1, 2, 3] 1)))
      ([.data noteStream] ++ noteEnding)).2 = .ok 2 from
    ⟨first, (cuts _ _ _ _ whole pieces same 2).mp first⟩
  obtain ⟨body, carries⟩ := whole
  rcases scpDownload_spec ends carries few with ⟨content, target, after, delivers, run, -⟩ | ⟨never, -⟩
  · obtain ⟨rest, found⟩ := delivers.file
    cases noteStream_content.symm.trans found
    rw [run]
    rfl
  · refine absurd ⟨⟨[], noteStream_content⟩, ?_, rfl⟩ (never [104, 105] ⟨["home"], "note"⟩)
    exact ⟨⟨rfl, ⟨rfl, rfl, rfl, rfl⟩, some [1, 2, 3], by decide⟩, fun _ => rfl, nofun, none, by decide⟩

end Sample

end PortMate
