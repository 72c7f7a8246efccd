import PortMate.HostKeys
import PortMate.ResumedTransferRuns

namespace PortMate

def maxScpProtocolLineBytes : Nat := 64 * 1024

def maxSshExecStdoutBytes : Nat := 4 * 1024 * 1024

def maxSshExecStderrBytes : Nat := 64 * 1024

inductive SshBackendMessage
  | data (data : List UInt8)
  | extendedData (data : List UInt8) (ext : UInt32)
  | exitStatus (code : UInt32)
  | exitSignal (signalName errorMessage : String)
  | failure
  | error (error : String)
  | eof
  | close
  | other

def appendBoundedSshExecData (buffer data : List UInt8) (maxBytes : Nat) (stream : String) :
    Except String (List UInt8) :=
  let nextLen := buffer.length + data.length
  if 2 ^ 64 ≤ nextLen then .error s!"SSH exec {stream} 长度溢出"
  else if maxBytes < nextLen then .error s!"SSH exec {stream} 超过 {maxBytes} 字节上限"
  else .ok (buffer ++ data)

/-- What is read of the channel and not used yet, the messages to come, and what the remote wrote to
its standard error. A channel without a message to come is closed. -/
structure ScpInput where
  pending : List UInt8
  messages : List SshBackendMessage
  stderr : List UInt8

def lossyText (bytes : List UInt8) : String := String.ofList (fromUtf8Lossy bytes)

/-- `scp_next_byte` on the three parts of the input. -/
def scpNextByte (stderr : List UInt8) :
    List UInt8 → List SshBackendMessage → Except String (Option UInt8 × ScpInput)
  | byte :: pending, messages => .ok (some byte, ⟨pending, messages, stderr⟩)
  | [], [] => .ok (none, ⟨[], [], stderr⟩)
  | [], .data data :: messages => scpNextByte stderr data messages
  | [], .extendedData data _ :: messages =>
    match appendBoundedSshExecData stderr data maxSshExecStderrBytes "SCP download stderr" with
    | .error error => .error error
    | .ok stderr => scpNextByte stderr [] messages
  | [], .exitStatus code :: messages =>
    if code ≠ 0 then .error s!"SCP download remote returned non-zero {code}: {lossyText stderr}"
    else scpNextByte stderr [] messages
  | [], .eof :: messages => .ok (none, ⟨[], messages, stderr⟩)
  | [], .close :: messages => .ok (none, ⟨[], messages, stderr⟩)
  | [], _ :: messages => scpNextByte stderr [] messages

def ScpInput.nextByte (input : ScpInput) : Except String (Option UInt8 × ScpInput) :=
  scpNextByte input.stderr input.pending input.messages

/-- `scp_read_line`, with room for so many more bytes. -/
def scpReadLine (stage : String) : Nat → List UInt8 → ScpInput →
    Except String (List UInt8 × ScpInput)
  | room, bytes, input =>
    match input.nextByte with
    | .error error => .error error
    | .ok (none, _) => .error s!"{stage}: remote closed before newline"
    | .ok (some byte, input) =>
      if byte = 10 then .ok (bytes, input)
      else
        match room with
        | 0 => .error s!"{stage} 超过协议行上限（{maxScpProtocolLineBytes} bytes）"
        | room + 1 => scpReadLine stage room (bytes ++ [byte]) input

def ScpInput.readLine (input : ScpInput) (stage : String) : Except String (String × ScpInput) :=
  (scpReadLine stage maxScpProtocolLineBytes [] input).map fun (bytes, input) =>
    (lossyText bytes, input)

def ScpInput.remoteError (input : ScpInput) (stage : String) : String :=
  match input.readLine stage with
  | .error error => error
  | .ok (message, _) => s!"SCP remote error: {message}"

def scpWaitAck (input : ScpInput) (stage : String) : Except String ScpInput :=
  match input.nextByte with
  | .error error => .error error
  | .ok (none, _) => .error "SCP remote closed while waiting for ack"
  | .ok (some byte, input) =>
    if byte = 0 then .ok input
    else if byte = 1 ∨ byte = 2 then .error (input.remoteError stage)
    else .error s!"SCP unexpected ack byte: {byte}"

def scpHeaderSize (header : String) : Except String Nat :=
  match splitWhitespace header.toList with
  | _ :: size :: _ =>
    match parseUsize size with
    | some size => .ok size
    | none => .error "SCP invalid file size"
  | _ => .error s!"SCP invalid file header: C{header}"

/-- From the first byte to the end of the header. -/
def ScpInput.readHeader (input : ScpInput) : Except String (Nat × ScpInput) :=
  match input.nextByte with
  | .error error => .error error
  | .ok (none, _) => .error "SCP remote closed before header"
  | .ok (some first, input) =>
    if first = 1 ∨ first = 2 then .error (input.remoteError "SCP 读取远端错误")
    else if first ≠ 67 then .error s!"SCP unexpected header byte: {first}"
    else
      match input.readLine "SCP 读取文件头" with
      | .error error => .error error
      | .ok (header, input) => (scpHeaderSize header).map fun size => (size, input)

/-- The steps of a download that the desktop or the channel can let fail. -/
inductive ScpStep
  | initialAck | prepareTarget | resumeOffset | createPart | headerAck | flush | completionAck
  | finalize
  deriving DecidableEq

/-- What a download finds: the place that its destination resolves to, the steps that fail, and how
many bytes the disk has room for, if that is bounded. -/
structure ScpSurroundings where
  destination : Except String FilePlace
  fault : ScpStep → Option String
  room : Option Nat

/-- `write_all` of a chunk behind the bytes received. -/
def ScpSurroundings.write (around : ScpSurroundings) (files : Files) (part : FilePlace)
    (received : Nat) (chunk : List UInt8) : Files × Except String Unit :=
  if around.room.any (· < received + chunk.length) then
    (appendFile files part (chunk.take (around.room.getD 0 - received)),
      .error "写入本地目标文件失败")
  else (appendFile files part chunk, .ok ())

/-- The loop over the file body. A chunk is what is pending, and no more than the file has left; of
nothing pending there is none. -/
def scpReceiveBody (around : ScpSurroundings) (part : FilePlace) (size : Nat) :
    List SshBackendMessage → Nat → List UInt8 → List UInt8 → Files → Files × Except String ScpInput
  | messages, received, pending, stderr, files =>
    let chunk := pending.take (size - received)
    match around.write files part received chunk with
    | (files, .error error) => (files, .error error)
    | (files, .ok _) =>
      if size ≤ received + chunk.length then
        (files, .ok ⟨pending.drop (size - received), messages, stderr⟩)
      else
        match messages with
        | [] => (files, .error "SCP remote closed during file body")
        | .data data :: messages =>
          scpReceiveBody around part size messages (received + chunk.length) data stderr files
        | .extendedData data _ :: messages =>
          match appendBoundedSshExecData stderr data maxSshExecStderrBytes "SCP download stderr" with
          | .error error => (files, .error error)
          | .ok stderr =>
            scpReceiveBody around part size messages (received + chunk.length) [] stderr files
        | .exitStatus code :: messages =>
          if code ≠ 0 then
            (files,
              .error s!"SCP download remote returned non-zero {code}: {lossyText stderr}")
          else scpReceiveBody around part size messages (received + chunk.length) [] stderr files
        | .eof :: _ => (files, .error "SCP remote closed during file body")
        | .close :: _ => (files, .error "SCP remote closed during file body")
        | _ :: messages =>
          scpReceiveBody around part size messages (received + chunk.length) [] stderr files

/-- The messages of `scp_wait_download_completion`. The grace after the end of the output is over
where there is no message to come. -/
def scpCompletionStatus : List SshBackendMessage → List UInt8 → List UInt8 → Option UInt32 → Bool →
    Except String (Option UInt32 × List UInt8 × List UInt8)
  | [], output, stderr, exitStatus, _ => .ok (exitStatus, output, stderr)
  | .exitStatus code :: messages, output, stderr, _, eofReceived =>
    if eofReceived then .ok (some code, output, stderr)
    else scpCompletionStatus messages output stderr (some code) eofReceived
  | .eof :: messages, output, stderr, exitStatus, _ =>
    if exitStatus.isSome then .ok (exitStatus, output, stderr)
    else scpCompletionStatus messages output stderr exitStatus true
  | .close :: _, output, stderr, exitStatus, _ => .ok (exitStatus, output, stderr)
  | .data data :: messages, output, stderr, exitStatus, eofReceived =>
    match appendBoundedSshExecData output data maxSshExecStdoutBytes "SCP download stdout" with
    | .error error => .error error
    | .ok output => scpCompletionStatus messages output stderr exitStatus eofReceived
  | .extendedData data _ :: messages, output, stderr, exitStatus, eofReceived =>
    match appendBoundedSshExecData stderr data maxSshExecStderrBytes "SCP download stderr" with
    | .error error => .error error
    | .ok stderr => scpCompletionStatus messages output stderr exitStatus eofReceived
  | _ :: messages, output, stderr, exitStatus, eofReceived =>
    scpCompletionStatus messages output stderr exitStatus eofReceived

def scpWaitDownloadCompletion (messages : List SshBackendMessage) (stderr : List UInt8) :
    Except String Unit :=
  match scpCompletionStatus messages [] stderr none false with
  | .error error => .error error
  | .ok (exitStatus, output, stderr) =>
    match exitStatus.filter (· ≠ 0) with
    | some code =>
      .error
        s!"SCP download remote returned non-zero {code}: {lossyText output}{lossyText stderr}"
    | none => .ok ()

namespace ScpSurroundings

variable (around : ScpSurroundings)

def attempt (step : ScpStep) : Except String Unit :=
  match around.fault step with
  | some error => .error error
  | none => .ok ()

/-- Between the header and the body: the part is made anew. -/
def openPart (files : Files) (size : Nat) : Files × Except String FilePlace :=
  match around.destination with
  | .error error => (files, .error error)
  | .ok target =>
    match around.attempt .prepareTarget, around.attempt .resumeOffset with
    | .error error, _ => (files, .error error)
    | _, .error error => (files, .error error)
    | .ok _, .ok _ =>
      match localResumeOffset files (localResumePartPath target) size with
      | .error error => (files, .error error)
      | .ok (files, _) =>
        match around.attempt .createPart with
        | .error error => (files, .error error)
        | .ok _ =>
          match openLocalResumeWriter files (localResumePartPath target) 0 with
          | .error error => (files, .error s!"创建本地目标文件失败: {error}")
          | .ok files => (files, (around.attempt .headerAck).map fun _ => target)

/-- From the end of the body to the end of the remote. -/
def complete (input : ScpInput) : Except String Unit :=
  match around.attempt .flush with
  | .error error => .error error
  | .ok _ =>
    match scpWaitAck input "SCP 等待完成确认" with
    | .error error => .error error
    | .ok input =>
      match around.attempt .completionAck with
      | .error error => .error error
      | .ok _ => scpWaitDownloadCompletion input.messages input.stderr

end ScpSurroundings

/-- `scp_download_with_idle_timeout`, on a channel that is open. -/
def scpDownload (around : ScpSurroundings) (files : Files) (messages : List SshBackendMessage) :
    Files × Except String Nat :=
  match around.attempt .initialAck with
  | .error error => (files, .error error)
  | .ok _ =>
    match ScpInput.readHeader ⟨[], messages, []⟩ with
    | .error error => (files, .error error)
    | .ok (size, input) =>
      match around.openPart files size with
      | (files, .error error) => (files, .error error)
      | (files, .ok target) =>
        match scpReceiveBody around (localResumePartPath target) size input.messages 0 input.pending
            input.stderr files with
        | (files, .error error) => (files, .error error)
        | (files, .ok input) =>
          match around.complete input, around.attempt .finalize with
          | .error error, _ => (files, .error error)
          | .ok _, .error error => (files, .error error)
          | .ok _, .ok _ =>
            match finalizeLocalResumeFile files (localResumePartPath target) target with
            | .error error => (files, .error error)
            | .ok files => (files, .ok size)

end PortMate
