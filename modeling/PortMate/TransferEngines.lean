import PortMate.TransferPreparation

namespace PortMate

open List

inductive TransferEnd
  | source | destination
  deriving DecidableEq

def StartTransferRequest.endpoint (request : StartTransferRequest) : TransferEnd → String
  | .source => request.source
  | .destination => request.destination

inductive ModemDirection
  | upload (localSource remoteDestination : String)
  | download (remoteSource localDestination : String)
  deriving DecidableEq

/-- What an engine sets out to do once it has read the endpoints. -/
inductive EngineRoute
  | localCopy (source destination : String)
  | upload (source remoteDestination : String)
  | download (remoteSource destination : String)
  | remoteCopy (remoteSource remoteDestination : String)
  | deviceUpload (source : String) (receiver : LoadReceiverSpec)
  | tftpUpload (source fileName : String) (receiver : TftpReceiverSpec)

/-- The endpoints whose files on the desktop an engine looks at or opens, and how it goes on. -/
structure EngineRun where
  opened : List TransferEnd
  outcome : Except String EngineRoute

/-- The desktop an engine runs on: `entry` says whether there is a regular file at a path, and
`tftpServer` how the server address and the socket of a TFTP transfer come out. -/
structure EngineSurroundings where
  platform : LocalTransferPathPlatform
  crates : EndpointCrates
  entry : String → String → Except String Bool
  tftpServer : TftpReceiverSpec → Except String Unit

/-- `transfer_file_via_sftp` and `transfer_file_via_local_or_scp`, which differ in the label. -/
def transferRemoteFile (label : String) (request : StartTransferRequest) : EngineRun :=
  match validateRemoteEndpoint request.source s!"{label} 远端源路径" with
  | .error error => ⟨[], .error error⟩
  | .ok () =>
    match validateRemoteEndpoint request.destination s!"{label} 远端目标路径" with
    | .error error => ⟨[], .error error⟩
    | .ok () =>
      match remotePath request.source, remotePath request.destination with
      | none, none =>
        ⟨[.source, .destination], .ok (.localCopy request.source request.destination)⟩
      | none, some remoteDestination =>
        ⟨[.source], .ok (.upload request.source remoteDestination)⟩
      | some remoteSource, none =>
        ⟨[.destination], .ok (.download remoteSource request.destination)⟩
      | some remoteSource, some remoteDestination =>
        ⟨[], .ok (.remoteCopy remoteSource remoteDestination)⟩

def transferFileViaSftp (request : StartTransferRequest) : EngineRun :=
  transferRemoteFile "SFTP" request

def transferFileViaLocalOrScp (request : StartTransferRequest) : EngineRun :=
  transferRemoteFile "SCP" request

def transferFileViaTftp (outside : EngineSurroundings) (request : StartTransferRequest) :
    EngineRun :=
  match parseTftpReceiverEndpoint outside.crates request.destination with
  | .error error => ⟨[], .error error⟩
  | .ok none => ⟨[], .error "TFTP 传输必须使用 load:tftpboot 接收端点"⟩
  | .ok (some receiver) =>
    if hasRemoteTransferPrefix request.source then
      ⟨[], .error "TFTP 一次性服务仅支持 PortMate 本机文件"⟩
    else
      match receiver.fileName.or (pathFileName outside.platform request.source) with
      | none => ⟨[], .error "TFTP 本地传输源缺少可用文件名"⟩
      | some fileName =>
        match validateTftpFileName fileName with
        | .error error => ⟨[], .error error⟩
        | .ok () =>
          match outside.tftpServer receiver with
          | .error error => ⟨[], .error error⟩
          | .ok () =>
            match outside.entry request.source "TFTP 本地传输源" with
            | .error error => ⟨[.source], .error error⟩
            | .ok false => ⟨[.source], .error s!"TFTP 本地传输源不存在: {request.source}"⟩
            | .ok true => ⟨[.source], .ok (.tftpUpload request.source fileName receiver)⟩

def modemDirectionError : String :=
  "Modem transfer expects local -> remote:path upload or remote:path -> local download"

/-- The remote path of a modem transfer names a file. -/
def validateModemRemotePath (path role : String) : Except String Unit :=
  match validateRemoteTransferPath path s!"Modem 远端{role}路径" with
  | .error error => .error error
  | .ok () =>
    if path.toList.getLast? = some '/' then
      .error s!"Modem 远端{role}路径不能以 / 结尾；请提供文件路径"
    else .ok ()

/-- The endpoints looked at, and the direction. An upload without a prefix looks at the source
before the path is checked. -/
def modemDirection (entry : String → String → Except String Bool) (request : StartTransferRequest) :
    List TransferEnd × Except String ModemDirection :=
  match remotePath request.source, remotePath request.destination with
  | none, some remoteDestination =>
    match validateModemRemotePath remoteDestination "目标" with
    | .error error => ([], .error error)
    | .ok () =>
      match entry request.source "本地传输源" with
      | .error error => ([.source], .error error)
      | .ok false => ([.source], .error "本地传输源不存在")
      | .ok true => ([.source], .ok (.upload request.source remoteDestination))
  | some remoteSource, none =>
    match validateModemRemotePath remoteSource "源" with
    | .error error => ([], .error error)
    | .ok () => ([], .ok (.download remoteSource request.destination))
  | none, none =>
    match entry request.source "本地传输源" with
    | .error error => ([.source], .error error)
    | .ok false => ([.source], .error modemDirectionError)
    | .ok true =>
      match validateModemRemotePath request.destination "目标" with
      | .error error => ([.source], .error error)
      | .ok () => ([.source], .ok (.upload request.source request.destination))
  | some _, some _ => ([], .error modemDirectionError)

/-- The device receiver of an upload, where the destination is one. -/
def deviceModemUpload (outside : EngineSurroundings) (request : StartTransferRequest) :
    List TransferEnd × Except String (Option (String × LoadReceiverSpec)) :=
  match parseLoadReceiverEndpoint outside.crates request.destination request.protocol with
  | .error error => ([], .error error)
  | .ok none => ([], .ok none)
  | .ok (some receiver) =>
    if hasRemoteTransferPrefix request.source then
      ([], .error "load: 设备接收端点只支持从 PortMate 本机文件上传")
    else
      match outside.entry request.source "Modem 本地传输源" with
      | .error error => ([.source], .error error)
      | .ok false => ([.source], .error "Modem 本地传输源不存在")
      | .ok true => ([.source], .ok (some (request.source, receiver)))

/-- `transfer_file_via_xmodem`, `_ymodem` and `_zmodem`: the device first, then the direction. -/
def transferFileViaModem (outside : EngineSurroundings) (request : StartTransferRequest) :
    EngineRun :=
  match deviceModemUpload outside request with
  | (opened, .error error) => ⟨opened, .error error⟩
  | (opened, .ok (some (source, receiver))) => ⟨opened, .ok (.deviceUpload source receiver)⟩
  | (opened, .ok none) =>
    match modemDirection outside.entry request with
    | (looked, .error error) => ⟨opened ++ looked, .error error⟩
    | (looked, .ok (.upload source remoteDestination)) =>
      ⟨opened ++ looked, .ok (.upload source remoteDestination)⟩
    | (looked, .ok (.download remoteSource destination)) =>
      ⟨opened ++ looked ++ [.destination], .ok (.download remoteSource destination)⟩

/-- The dispatch of `run_queued_transfer`. -/
def runTransferEngine (outside : EngineSurroundings) (request : StartTransferRequest) : EngineRun :=
  match request.protocol with
  | .sftp => transferFileViaSftp request
  | .scp => transferFileViaLocalOrScp request
  | .tftp => transferFileViaTftp outside request
  | .xmodem | .ymodem | .zmodem => transferFileViaModem outside request

section Engines

variable {outside : EngineSurroundings} {request : StartTransferRequest} {opened : TransferEnd}

/-- An engine opens no endpoint with a remote prefix, and a receiver only where the protocol knows
none; a copy on the desktop opens both ends. -/
structure RespectsPrefixes (request : StartTransferRequest) (run : EngineRun) : Prop where
  opens : ∀ opened ∈ run.opened, remotePath (request.endpoint opened) = none
  receivers : .destination ∈ run.opened → hasLoadReceiverPrefix request.destination = true →
    request.protocol = .sftp ∨ request.protocol = .scp
  copies : ∀ source destination, run.outcome = .ok (.localCopy source destination) →
    ∀ opened, opened ∈ run.opened

theorem respects_closed {outcome : Except String EngineRoute}
    (moved : ∀ source destination, outcome ≠ .ok (.localCopy source destination)) :
    RespectsPrefixes request ⟨[], outcome⟩ :=
  ⟨fun _ mem => absurd mem not_mem_nil, fun mem => absurd mem not_mem_nil,
    fun source destination copied => absurd copied (moved source destination)⟩

theorem respects_source {outcome : Except String EngineRoute}
    (path : remotePath request.source = none)
    (moved : ∀ source destination, outcome ≠ .ok (.localCopy source destination)) :
    RespectsPrefixes request ⟨[.source], outcome⟩ := by
  refine ⟨fun opened mem => ?_, fun mem => absurd (mem_singleton.mp mem) (by decide),
    fun source destination copied => absurd copied (moved source destination)⟩
  rw [mem_singleton.mp mem]
  exact path

theorem respects_transferRemoteFile (label : String)
    (files : request.protocol = .sftp ∨ request.protocol = .scp) :
    RespectsPrefixes request (transferRemoteFile label request) := by
  unfold transferRemoteFile
  split
  · exact respects_closed fun _ _ => by simp
  · split
    · exact respects_closed fun _ _ => by simp
    · cases sourcePath : remotePath request.source with
      | none =>
        cases destinationPath : remotePath request.destination with
        | none =>
          refine ⟨fun opened _ => ?_, fun _ _ => files, fun _ _ _ opened => ?_⟩
          · cases opened with
            | source => exact sourcePath
            | destination => exact destinationPath
          · cases opened <;> simp
        | some path => exact respects_source sourcePath fun _ _ => by simp
      | some path =>
        cases destinationPath : remotePath request.destination with
        | none =>
          refine ⟨fun opened mem => ?_, fun _ _ => files, fun _ _ copied => by simp at copied⟩
          rw [mem_singleton.mp mem]
          exact destinationPath
        | some path => exact respects_closed fun _ _ => by simp

theorem respects_transferFileViaTftp :
    RespectsPrefixes request (transferFileViaTftp outside request) := by
  unfold transferFileViaTftp
  split
  · exact respects_closed fun _ _ => by simp
  · exact respects_closed fun _ _ => by simp
  · split
    next => exact respects_closed fun _ _ => by simp
    next remote =>
      have sourcePath := remotePath_eq_none_iff.mpr (Bool.eq_false_iff.mpr remote)
      split
      · exact respects_closed fun _ _ => by simp
      · split
        · exact respects_closed fun _ _ => by simp
        · split
          · exact respects_closed fun _ _ => by simp
          · split <;> exact respects_source sourcePath fun _ _ => by simp

theorem modemDirection_looks (entry : String → String → Except String Bool)
    (request : StartTransferRequest) :
    ((modemDirection entry request).1 = [] ∨
        (modemDirection entry request).1 = [.source] ∧ remotePath request.source = none) ∧
      ∀ remoteSource path, (modemDirection entry request).2 = .ok (.download remoteSource path) →
        remotePath request.destination = none := by
  unfold modemDirection
  cases sourcePath : remotePath request.source with
  | none =>
    cases destinationPath : remotePath request.destination with
    | none =>
      cases entry request.source "本地传输源" with
      | error error => simp
      | ok found =>
        cases found with
        | false => simp
        | true => cases validateModemRemotePath request.destination "目标" <;> simp
    | some path =>
      cases validated : validateModemRemotePath path "目标" with
      | error error => simp [validated]
      | ok checked =>
        simp only [validated]
        cases entry request.source "本地传输源" with
        | error error => simp
        | ok found => cases found <;> simp
  | some path =>
    cases destinationPath : remotePath request.destination with
    | some destination => simp
    | none => cases validated : validateModemRemotePath path "源" <;> simp [validated]

theorem deviceModemUpload_looks (outside : EngineSurroundings) (request : StartTransferRequest) :
    ((deviceModemUpload outside request).1 = [] ∨
        (deviceModemUpload outside request).1 = [.source] ∧ remotePath request.source = none) ∧
      ((deviceModemUpload outside request).2 = .ok none →
        hasLoadReceiverPrefix request.destination = false) := by
  unfold deviceModemUpload
  cases parsed : parseLoadReceiverEndpoint outside.crates request.destination request.protocol with
  | error error => simp
  | ok receiver =>
    cases receiver with
    | none => exact ⟨.inl rfl, fun _ => (parseLoadReceiverEndpoint_ok parsed).1.symm⟩
    | some receiver =>
      simp only
      split
      next => simp
      next remote =>
        have sourcePath := remotePath_eq_none_iff.mpr (Bool.eq_false_iff.mpr remote)
        cases outside.entry request.source "Modem 本地传输源" with
        | error error => simp [sourcePath]
        | ok found => cases found <;> simp [sourcePath]

theorem looks_source {looked : List TransferEnd}
    (looks : looked = [] ∨ looked = [.source] ∧ remotePath request.source = none)
    (mem : opened ∈ looked) : opened = .source ∧ remotePath (request.endpoint opened) = none := by
  obtain rfl | ⟨rfl, path⟩ := looks
  · exact absurd mem not_mem_nil
  · rw [mem_singleton.mp mem]
    exact ⟨rfl, path⟩

theorem respects_looked {looked : List TransferEnd} {outcome : Except String EngineRoute}
    (looks : ∀ opened ∈ looked, opened = .source ∧ remotePath (request.endpoint opened) = none)
    (moved : ∀ source destination, outcome ≠ .ok (.localCopy source destination)) :
    RespectsPrefixes request ⟨looked, outcome⟩ :=
  ⟨fun opened mem => (looks opened mem).2, fun mem => absurd (looks _ mem).1 (by decide),
    fun source destination copied => absurd copied (moved source destination)⟩

theorem respects_transferFileViaModem :
    RespectsPrefixes request (transferFileViaModem outside request) := by
  obtain ⟨deviceLooks, aside⟩ := deviceModemUpload_looks outside request
  obtain ⟨modemLooks, download⟩ := modemDirection_looks outside.entry request
  unfold transferFileViaModem
  split
  next device =>
    rw [device] at deviceLooks
    exact respects_looked (fun _ => looks_source deviceLooks) fun _ _ => by simp
  next device =>
    rw [device] at deviceLooks
    exact respects_looked (fun _ => looks_source deviceLooks) fun _ _ => by simp
  next front device =>
    rw [device] at deviceLooks aside
    have both : ∀ looked, (modemDirection outside.entry request).1 = looked →
        ∀ opened ∈ front ++ looked,
          opened = .source ∧ remotePath (request.endpoint opened) = none := by
      rintro looked rfl
      exact forall_mem_append.mpr
        ⟨fun _ => looks_source deviceLooks, fun _ => looks_source modemLooks⟩
    split
    next modem => exact respects_looked (both _ (by rw [modem])) fun _ _ => by simp
    next modem => exact respects_looked (both _ (by rw [modem])) fun _ _ => by simp
    next looked remoteSource path modem =>
      refine ⟨forall_mem_append.mpr ⟨fun opened mem => (both _ (by rw [modem]) opened mem).2,
        fun opened mem => ?_⟩, fun _ load => ?_, fun _ _ copied => by simp at copied⟩
      · rw [mem_singleton.mp mem]
        exact download remoteSource path (by rw [modem])
      · exact absurd (load.symm.trans (aside rfl)) (by decide)

theorem respects_runTransferEngine (outside : EngineSurroundings)
    (request : StartTransferRequest) :
    RespectsPrefixes request (runTransferEngine outside request) := by
  unfold runTransferEngine
  cases protocol : request.protocol with
  | sftp => exact respects_transferRemoteFile "SFTP" (.inl protocol)
  | scp => exact respects_transferRemoteFile "SCP" (.inr protocol)
  | tftp => exact respects_transferFileViaTftp
  | xmodem => exact respects_transferFileViaModem
  | ymodem => exact respects_transferFileViaModem
  | zmodem => exact respects_transferFileViaModem

variable {settings : TransferSettings} {prepared : StartTransferRequest}
  {platform : LocalTransferPathPlatform} {home : Option String}

theorem prepared_opens (done : Prepared settings request prepared platform home)
    (mem : opened ∈ (runTransferEngine outside prepared).opened) :
    isNonlocalTransferEndpoint (request.endpoint opened) = false := by
  have respects := respects_runTransferEngine outside prepared
  obtain ⟨directory, _, source, destination⟩ := done.resolved
  rw [← Bool.not_eq_true]
  intro marked
  -- a nonlocal endpoint is left as it is
  have kept : prepared.endpoint opened = request.endpoint opened := by
    cases opened with
    | source => exact resolve_nonlocal marked source
    | destination => exact destination.elim id (resolve_nonlocal marked)
  have path := respects.opens opened mem
  rw [kept, remotePath_eq_none_iff] at path
  rw [isNonlocalTransferEndpoint_eq, path, Bool.false_or] at marked
  cases opened with
  | source => exact absurd (marked.symm.trans done.source_not_load) (by decide)
  | destination =>
    have files := respects.receivers mem (by rw [← marked]; exact congrArg _ kept)
    rw [done.protocol] at files
    obtain ⟨sftp, scp⟩ := done.destination_not_load marked
    exact files.elim sftp scp

theorem prepared_classified (done : Prepared settings request prepared platform home)
    (home_absolute : ∀ path, home = some path → classifyLocalTransferPath path platform = .absolute)
    (side : TransferEnd) : isNonlocalTransferEndpoint (prepared.endpoint side) =
      isNonlocalTransferEndpoint (request.endpoint side) := by
  obtain ⟨directory, resolvedDirectory, source, destination⟩ := done.resolved
  have kept : ∀ value resolved,
      resolveDefaultLocalTransferPathWithHome value directory platform home = .ok resolved →
        isNonlocalTransferEndpoint resolved = isNonlocalTransferEndpoint value := by
    intro value resolved resolves
    cases marked : isNonlocalTransferEndpoint value with
    | true => rw [resolve_nonlocal marked resolves, marked]
    | false => exact resolve_local home_absolute resolvedDirectory marked resolves
  cases side with
  | source => exact kept _ _ source
  | destination => exact destination.elim (congrArg _) (kept _ _)

end Engines

end PortMate
