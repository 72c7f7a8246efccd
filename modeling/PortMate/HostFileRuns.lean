import PortMate.HostFileGate

namespace PortMate

open List HostFileWorld SessionStore

theorem validateMcpTransferRoute_ok {crates : EndpointCrates} {request : StartTransferRequest}
    (validated : validateMcpTransferRoute crates request = .ok ()) :
    isNonlocalTransferEndpoint request.source = true ∨
      isNonlocalTransferEndpoint request.destination = true := by
  obtain ⟨_, _, validated⟩ := except_bind_eq_ok validated
  obtain ⟨_, _, validated⟩ := except_bind_eq_ok validated
  obtain ⟨_, _, validated⟩ := except_bind_eq_ok validated
  obtain ⟨_, _, validated⟩ := except_bind_eq_ok validated
  have remote := rejectIf_eq_ok_iff.mp validated
  cases source : isNonlocalTransferEndpoint request.source with
  | true => exact .inl rfl
  | false =>
    rw [source] at remote
    exact .inr (by simpa using remote)

theorem local_of_safeFileName {fileName : String} (safe : unsafeMcpFileName fileName = false) :
    isNonlocalTransferEndpoint fileName = false := by
  rw [← Bool.not_eq_true]
  intro marked
  have colon : ':' ∈ fileName.toList := by
    obtain ⟨rest, same | same | same⟩ := nonlocal_cases marked <;> simp [same]
  simp only [unsafeMcpFileName, Bool.or_eq_false_iff, any_eq_false] at safe
  exact absurd (safe.1.1.2 ':' colon) (by decide)

/-- What the validation found of a request with these endpoints: a way off the desktop, and the
grant if a path of the desktop is involved. -/
structure Cleared (desktop : HostFileDesktop) (admission : Admission)
    (request : StartTransferRequest) : Prop where
  routed : validateMcpTransferRoute desktop.crates request = .ok ()
  granted : mcpTransferUsesHostPath request = true →
    admission.store.mcpCan (rustTrim admission.clientId) .hostFiles (some request.sessionId)
      admission.now = true

/-- An admitted request is cleared; the record of a retry is still the one that was. -/
def Admitted (desktop : HostFileDesktop) (world : HostFileWorld) (admission : Admission) : Prop :=
  match admission.command with
  | .path transfer => Cleared desktop admission transfer
  | .inline _ | .upload _ => True
  | .retry transferId => ∃ request, Cleared desktop admission request ∧
      transferId ∈ world.issued ∧
      ∀ task ∈ world.store.transfers, task.id = transferId → retriedRequest task = request

structure HostFileInvariant (desktop : HostFileDesktop) (world : HostFileWorld) : Prop where
  nodup : (world.store.transfers.map (·.id)).Nodup
  issued : ∀ task ∈ world.store.transfers, task.id ∈ world.issued
  admitted : ∀ admission ∈ world.admitted, Admitted desktop world admission

/-- What holds of a transfer that ran for a client. -/
structure HostFilesApart (desktop : HostFileDesktop) (executed : ExecutedTransfer) : Prop where
  apart :
    (∀ opened ∈ executed.run.opened,
        executed.staged = some (executed.prepared.endpoint opened)) ∨
      executed.admission.store.mcpCan (rustTrim executed.admission.clientId) .hostFiles
        (some executed.request.sessionId) executed.admission.now = true
  agrees : ∀ opened ∈ executed.run.opened,
    isNonlocalTransferEndpoint (executed.request.endpoint opened) = false
  classified : (∀ path, executed.home = some path →
      classifyLocalTransferPath path desktop.platform = .absolute) →
    ∀ side, isNonlocalTransferEndpoint (executed.prepared.endpoint side) =
      isNonlocalTransferEndpoint (executed.request.endpoint side)
  uncopied : ∀ source destination,
    executed.run.outcome ≠ .ok (.localCopy source destination)

def FreshTransferIds (world : HostFileWorld) : HostFileEvent → Prop
  | .userTransfer taskId _ => taskId ∉ world.issued
  | .execute _ outside => outside.taskId ∉ world.issued
  | _ => True

section Runs

variable {desktop : HostFileDesktop} {world : HostFileWorld}

theorem stagedPath_absolute (task fileName : String) :
    classifyLocalTransferPath (desktop.stagedPath task fileName) desktop.platform = .absolute :=
  absolute_join (absolute_join (absolute_join desktop.absolute _) _) _

theorem requireMcpHostFileScope_ok {clientId : String} {now : DateTime}
    {transfer : StartTransferRequest}
    (allowed : world.requireMcpHostFileScope clientId now transfer = .ok ())
    (uses : mcpTransferUsesHostPath transfer = true) :
    world.store.mcpCan (rustTrim clientId) .hostFiles (some transfer.sessionId) now = true := by
  unfold requireMcpHostFileScope at allowed
  rw [uses] at allowed
  split at allowed
  next absurdity => cases absurdity
  next =>
    split at allowed
    next can => exact can
    next => cases allowed

variable {admission : Admission}

theorem apart_of_cleared {request prepared : StartTransferRequest} {settings : TransferSettings}
    {home : Option String} {staged : Option String} {outside : EngineSurroundings}
    (cleared : Cleared desktop admission request)
    (done : Prepared settings request prepared desktop.platform home) :
    HostFilesApart desktop
      { admission, request, staged, home, prepared, run := runTransferEngine outside prepared } := by
  have local_ends : ∀ opened ∈ (runTransferEngine outside prepared).opened,
      isNonlocalTransferEndpoint (request.endpoint opened) = false :=
    fun opened mem => prepared_opens done mem
  refine ⟨?_, local_ends, prepared_classified done, fun source destination copied => ?_⟩
  · by_cases uses : mcpTransferUsesHostPath request = true
    · exact .inr (cleared.granted uses)
    · refine .inl fun opened mem => absurd ?_ uses
      have here := local_ends opened mem
      unfold mcpTransferUsesHostPath
      cases opened with
      | source => rw [show isNonlocalTransferEndpoint request.source = false from here]; rfl
      | destination =>
        rw [show isNonlocalTransferEndpoint request.destination = false from here, Bool.not_false,
          Bool.or_true]
  · have both := (respects_runTransferEngine outside prepared).copies source destination copied
    have source_local := local_ends .source (both .source)
    have destination_local := local_ends .destination (both .destination)
    obtain marked | marked := validateMcpTransferRoute_ok cleared.routed
    · exact absurd (marked.symm.trans source_local) (by decide)
    · exact absurd (marked.symm.trans destination_local) (by decide)

theorem apart_of_staged {request prepared : StartTransferRequest} {settings : TransferSettings}
    {home : Option String} {outside : EngineSurroundings} {task fileName : String}
    (source : request.source = desktop.stagedPath task fileName)
    (marked : isNonlocalTransferEndpoint request.destination = true)
    (done : Prepared settings request prepared desktop.platform home) :
    HostFilesApart desktop
      { admission, request, staged := some request.source, home, prepared,
        run := runTransferEngine outside prepared } := by
  have local_ends : ∀ opened ∈ (runTransferEngine outside prepared).opened,
      isNonlocalTransferEndpoint (request.endpoint opened) = false :=
    fun opened mem => prepared_opens done mem
  have only : ∀ opened ∈ (runTransferEngine outside prepared).opened, opened = .source := by
    intro opened mem
    cases opened with
    | source => rfl
    | destination => exact absurd (marked.symm.trans (local_ends _ mem)) (by decide)
  refine ⟨.inl fun opened mem => ?_, local_ends, prepared_classified done,
    fun source destination copied => ?_⟩
  · rw [only opened mem]
    obtain ⟨directory, _, resolved, _⟩ := done.resolved
    have kept : prepared.source = request.source :=
      resolve_absolute (by rw [source]; exact stagedPath_absolute task fileName) resolved
    exact congrArg some kept.symm
  · have both := (respects_runTransferEngine outside prepared).copies source destination copied
    exact absurd (only .destination (both .destination)) (by decide)

theorem routed_of_inline {transfer : StartMcpContentTransferRequest}
    (validated : desktop.validateMcpContentTransferRequest transfer = .ok ()) :
    isNonlocalTransferEndpoint transfer.destination = true := by
  obtain ⟨_, name, validated⟩ := except_bind_eq_ok validated
  obtain ⟨_, _, validated⟩ := except_bind_eq_ok validated
  obtain ⟨_, _, validated⟩ := except_bind_eq_ok validated
  obtain ⟨_, _, validated⟩ := except_bind_eq_ok validated
  obtain ⟨_, _, validated⟩ := except_bind_eq_ok validated
  have plain := local_of_safeFileName (rejectIf_eq_ok_iff.mp name)
  exact (validateMcpTransferRoute_ok validated).resolve_left (ne_true_of_eq_false plain)

theorem routed_of_upload {metadata : StoredUploadMetadata}
    (checked : desktop.validateMcpContentUploadMetadata metadata = .ok ())
    (validated : desktop.validateMcpUploadedContentRoute metadata = .ok ()) :
    isNonlocalTransferEndpoint metadata.destination = true := by
  obtain ⟨_, _, checked⟩ := except_bind_eq_ok checked
  obtain ⟨_, _, checked⟩ := except_bind_eq_ok checked
  obtain ⟨_, name, _⟩ := except_bind_eq_ok checked
  obtain ⟨_, _, validated⟩ := except_bind_eq_ok validated
  have plain := local_of_safeFileName (rejectIf_eq_ok_iff.mp name)
  exact (validateMcpTransferRoute_ok validated).resolve_left (ne_true_of_eq_false plain)

theorem transferById_some {transferId : String} {task : TransferTask}
    (known : world.store.transferById transferId = some task) :
    task ∈ world.store.transfers ∧ task.id = transferId := by
  unfold transferById at known
  exact ⟨mem_of_find?_eq_some known, by simpa using find?_some known⟩

variable {request : StartTransferRequest}

theorem transferToStart_ok {outside : ExecutionSurroundings} {staged : Option String}
    (admitted : Admitted desktop world admission)
    (started : world.transferToStart desktop admission outside = .ok (request, staged)) :
    Cleared desktop admission request ∨
      staged = some request.source ∧ isNonlocalTransferEndpoint request.destination = true ∧
        ∃ fileName, request.source = desktop.stagedPath outside.stagingTask fileName := by
  unfold transferToStart at started
  unfold Admitted at admitted
  cases command : admission.command with
  | path transfer =>
    rw [command] at started admitted
    cases started
    exact .inl admitted
  | inline transfer =>
    rw [command] at started
    obtain ⟨_, validated, started⟩ := except_bind_eq_ok started
    obtain ⟨_, _, started⟩ := except_bind_eq_ok started
    cases started
    exact .inr ⟨rfl, routed_of_inline validated, transfer.fileName, rfl⟩
  | upload uploadId =>
    rw [command] at started
    obtain ⟨metadata, _, started⟩ := except_bind_eq_ok started
    obtain ⟨_, checked, started⟩ := except_bind_eq_ok started
    obtain ⟨_, validated, started⟩ := except_bind_eq_ok started
    obtain ⟨_, _, started⟩ := except_bind_eq_ok started
    cases started
    exact .inr ⟨rfl, routed_of_upload checked validated, metadata.fileName, rfl⟩
  | retry transferId =>
    rw [command] at started admitted
    obtain ⟨request', cleared, _, same⟩ := admitted
    obtain ⟨previous, found, started⟩ := except_bind_eq_ok started
    obtain ⟨_, _, started⟩ := except_bind_eq_ok started
    obtain ⟨_, _, started⟩ := except_bind_eq_ok started
    cases started
    obtain ⟨mem, named⟩ := transferById_some (okOr_eq_ok_iff.mp found)
    rw [same previous mem named]
    exact .inl cleared

theorem executeTransfer_apart {outside : ExecutionSurroundings} {executed : ExecutedTransfer}
    (admitted : Admitted desktop world admission)
    (done : world.executeTransfer desktop admission outside = .ok executed) :
    HostFilesApart desktop executed := by
  obtain ⟨⟨request, staged⟩, started, done⟩ := except_bind_eq_ok done
  obtain ⟨settings, _, done⟩ := except_bind_eq_ok done
  obtain ⟨prepared, ready, done⟩ := except_bind_eq_ok done
  obtain ⟨_, _, done⟩ := except_bind_eq_ok done
  cases done
  have ready := prepareTransferRequestWithHome_ok ready
  obtain cleared | ⟨rfl, marked, fileName, source⟩ := transferToStart_ok admitted started
  · exact apart_of_cleared cleared ready
  · exact apart_of_staged source marked ready

/-- One world comes after another: no id is forgotten, and the record under a known id is about the
request that it was about. -/
structure Follows (before after : HostFileWorld) : Prop where
  issued : ∀ id ∈ before.issued, id ∈ after.issued
  origin : ∀ task ∈ after.store.transfers, task.id ∈ before.issued →
    ∃ earlier ∈ before.store.transfers, earlier.id = task.id ∧
      retriedRequest earlier = retriedRequest task

theorem Admitted.follows {after : HostFileWorld} (admitted : Admitted desktop world admission)
    (follows : Follows world after) : Admitted desktop after admission := by
  unfold Admitted at admitted ⊢
  cases command : admission.command with
  | path transfer => rw [command] at admitted; exact admitted
  | inline transfer => trivial
  | upload uploadId => trivial
  | retry transferId =>
    rw [command] at admitted
    obtain ⟨request, cleared, known, same⟩ := admitted
    refine ⟨request, cleared, follows.issued _ known, fun task mem named => ?_⟩
    obtain ⟨earlier, earlierMem, sameId, sameRequest⟩ := follows.origin task mem (named ▸ known)
    rw [← sameRequest]
    exact same earlier earlierMem (sameId.trans named)

theorem recorded_mem {taskId : String} {task : TransferTask}
    (mem : task ∈ (world.record taskId request).store.transfers) :
    task ∈ world.store.transfers ∨ task = queuedTask taskId request := by
  have listed := (trimTransferHistory_sublist _ _).subset mem
  simpa using listed

theorem HostFileInvariant.record {taskId : String} (invariant : HostFileInvariant desktop world)
    (fresh : taskId ∉ world.issued) : HostFileInvariant desktop (world.record taskId request) := by
  have follows : Follows world (world.record taskId request) := by
    refine ⟨fun id known => mem_cons_of_mem _ known, fun task mem known => ?_⟩
    obtain earlier | rfl := recorded_mem mem
    · exact ⟨task, earlier, rfl, rfl⟩
    · exact absurd known fresh
  refine ⟨?_, fun task mem => ?_, fun admission mem =>
    (invariant.admitted admission mem).follows follows⟩
  · refine ((trimTransferHistory_sublist _ _).map _).nodup ?_
    rw [map_append, nodup_append]
    refine ⟨invariant.nodup, nodup_singleton _, ?_⟩
    intro id known new added same
    obtain ⟨task, mem, rfl⟩ := mem_map.mp known
    obtain rfl : new = taskId := by simpa [queuedTask] using added
    exact fresh (same ▸ invariant.issued task mem)
  · obtain earlier | rfl := recorded_mem mem
    · exact mem_cons_of_mem _ (invariant.issued task earlier)
    · exact mem_cons_self

theorem HostFileInvariant.change {transfers : List TransferTask} {grants : List McpGrant}
    (invariant : HostFileInvariant desktop world)
    (nodup : (transfers.map (·.id)).Nodup)
    (origin : ∀ task ∈ transfers, ∃ earlier ∈ world.store.transfers, earlier.id = task.id ∧
      retriedRequest earlier = retriedRequest task) :
    HostFileInvariant desktop
      { world with store := { world.store with transfers, grants } } := by
  have follows : Follows world { world with store := { world.store with transfers, grants } } :=
    ⟨fun _ known => known, fun task mem _ => origin task mem⟩
  refine ⟨nodup, fun task mem => ?_, fun admission mem =>
    (invariant.admitted admission mem).follows follows⟩
  obtain ⟨earlier, earlierMem, same, _⟩ := origin task mem
  exact same ▸ invariant.issued earlier earlierMem

theorem validateTransferCommand_ok {clientId : String} {command : McpTransferCommand}
    {now : DateTime} (invariant : HostFileInvariant desktop world)
    (validated : world.validateTransferCommand desktop clientId command now = .ok ()) :
    Admitted desktop world ⟨clientId, command, world.store, now⟩ := by
  unfold validateTransferCommand at validated
  cases command with
  | path transfer =>
    obtain ⟨_, routed, allowed⟩ := except_bind_eq_ok validated
    exact ⟨routed, requireMcpHostFileScope_ok allowed⟩
  | inline transfer => trivial
  | upload uploadId => trivial
  | retry transferId =>
    obtain ⟨_, _, validated⟩ := except_bind_eq_ok validated
    obtain ⟨task, found, validated⟩ := except_bind_eq_ok validated
    obtain ⟨_, routed, validated⟩ := except_bind_eq_ok validated
    obtain ⟨_, _, allowed⟩ := except_bind_eq_ok validated
    obtain ⟨mem, rfl⟩ := transferById_some (okOr_eq_ok_iff.mp found)
    refine ⟨retriedRequest task, ⟨routed, requireMcpHostFileScope_ok allowed⟩,
      invariant.issued task mem, fun other otherMem named => ?_⟩
    rw [inj_on_of_nodup_map invariant.nodup otherMem mem named]

theorem hostFileInvariant_step {event : HostFileEvent} (invariant : HostFileInvariant desktop world)
    (fresh : FreshTransferIds world event) :
    HostFileInvariant desktop ((hostFileMachine desktop).step world event).1 := by
  cases event with
  | editGrants grants => exact invariant.change invariant.nodup fun task mem => ⟨task, mem, rfl, rfl⟩
  | editUploads uploads => exact ⟨invariant.nodup, invariant.issued, fun admission mem =>
      (invariant.admitted admission mem).follows
        ⟨fun _ known => known, fun task mem _ => ⟨task, mem, rfl, rfl⟩⟩⟩
  | userTransfer taskId request => exact invariant.record fresh
  | editTask taskId status message bytesDone bytesTotal =>
    refine invariant.change ?_ fun task mem => ?_
    · have ids := editTransfer_ids taskId
        (fun task => { task with status, message, bytesDone, bytesTotal }) (fun _ => rfl)
        world.store.transfers
      exact (congrArg List.Nodup ids).mpr invariant.nodup
    · obtain same | ⟨earlier, earlierMem, _, rfl, _⟩ := mem_editTransfer mem
      · exact ⟨task, same, rfl, rfl⟩
      · exact ⟨earlier, earlierMem, rfl, rfl⟩
  | deleteSession sessionId =>
    exact invariant.change ((filter_sublist.map _).nodup invariant.nodup)
      fun task mem => ⟨task, mem_of_mem_filter mem, rfl, rfl⟩
  | request clientId command now =>
    simp only [hostFileMachine]
    cases validated : world.validateTransferCommand desktop clientId command now with
    | error error => exact invariant
    | ok done =>
      have admitted := validateTransferCommand_ok invariant validated
      refine ⟨invariant.nodup, invariant.issued, forall_mem_append.mpr
        ⟨invariant.admitted, fun admission mem => ?_⟩⟩
      rw [mem_singleton.mp mem]
      exact admitted
  | execute index outside =>
    simp only [hostFileMachine]
    cases world.admitted[index]? with
    | none => exact invariant
    | some admission =>
      simp only
      cases world.executeTransfer desktop admission outside with
      | error error => exact invariant
      | ok executed => exact invariant.record fresh

theorem executed_apart {event : HostFileEvent} (invariant : HostFileInvariant desktop world) :
    ∀ executed ∈ ((hostFileMachine desktop).step world event).2, HostFilesApart desktop executed := by
  intro executed mem
  cases event with
  | execute index outside =>
    simp only [hostFileMachine] at mem
    cases found : world.admitted[index]? with
    | none => simp [found] at mem
    | some admission =>
      cases done : world.executeTransfer desktop admission outside with
      | error error => simp [found, done] at mem
      | ok other =>
        obtain rfl : executed = other := by simpa [found, done] using mem
        exact executeTransfer_apart
          (invariant.admitted admission (mem_of_getElem? found)) done
  | request clientId command now =>
    simp only [hostFileMachine] at mem
    split at mem <;> cases mem
  | editGrants | editUploads | userTransfer | editTask | deleteSession => cases mem

/-- Over every run of grant edits, uploads, tasks of the user, requests and their executions. -/
theorem host_files_apart {events : List HostFileEvent}
    (nodup : (world.store.transfers.map (·.id)).Nodup)
    (issued : ∀ task ∈ world.store.transfers, task.id ∈ world.issued)
    (waiting : world.admitted = [])
    (fresh : (hostFileMachine desktop).StepsMeet FreshTransferIds world events) :
    ∀ executed ∈ ((hostFileMachine desktop).run world events).2, HostFilesApart desktop executed := by
  have start : HostFileInvariant desktop world :=
    ⟨nodup, issued, by rw [waiting]; exact fun _ mem => absurd mem not_mem_nil⟩
  have kept := @Transducer.run_preserves_trace_of _ _ _ (hostFileMachine desktop) FreshTransferIds
    (fun world trace => HostFileInvariant desktop world ∧
      ∀ executed ∈ trace, HostFilesApart desktop executed)
    (fun _ _ _ fresh kept => ⟨hostFileInvariant_step kept.1 fresh,
      forall_mem_append.mpr ⟨kept.2, executed_apart kept.1⟩⟩)
    world [] events fresh ⟨start, fun _ mem => absurd mem not_mem_nil⟩
  simpa using kept.2

end Runs

/-- A desktop whose data lies in a fixed directory. -/
def sampleHostDesktop : HostFileDesktop where
  platform := .unix
  crates := ⟨fun _ => .error "relative URL without a base", fun _ => true⟩
  decodeBase64 text := if text = "QQ==" then some [65] else none
  isUuid _ := false
  dataDir := "/home/user/.local/share/portmate"
  absolute := by decide

/-- A client with the host-files scope on one session. -/
def sampleHostWorld : HostFileWorld where
  store := { default with
    grants := [⟨"agent", "agent", [.transfer, .hostFiles], ["router"], false, none, none⟩] }
  uploads _ := .error "unknown or unavailable MCP content upload"
  admitted := []
  issued := []

def sampleUploadRequest : StartTransferRequest :=
  ⟨"router", .scp, "/home/user/config.txt", "remote:/etc/config.txt"⟩

def sampleExecution : ExecutionSurroundings where
  taskId := "t1"
  stagingTask := "s1"
  settings _ := some ⟨.ssh, none, fun _ => true⟩
  home := some "/home/user"
  staged := .ok ()
  commit := .ok ()
  entry _ _ := .ok true
  tftpServer _ := .ok ()

theorem sampleUploadRequest_endpoints :
    remotePath sampleUploadRequest.source = none ∧
      hasLoadReceiverPrefix sampleUploadRequest.source = false ∧
      remotePath sampleUploadRequest.destination = some "/etc/config.txt" ∧
      hasLoadReceiverPrefix sampleUploadRequest.destination = false := by
  refine ⟨?_, ?_, ?_, ?_⟩
  · simp [remotePath, stripPrefix?, String.isPrefixOf, sampleUploadRequest]
  · simp [hasLoadReceiverPrefix, String.isPrefixOf, sampleUploadRequest]
  · have marked : "remote:".isPrefixOf sampleUploadRequest.destination = true := by
      simp [String.isPrefixOf, sampleUploadRequest]
    unfold remotePath stripPrefix?
    rw [if_pos marked]
    decide
  · simp [hasLoadReceiverPrefix, String.isPrefixOf, sampleUploadRequest]

theorem sampleUploadRequest_validated :
    sampleHostWorld.validateTransferCommand sampleHostDesktop "agent" (.path sampleUploadRequest) 0 =
      .ok () := by
  obtain ⟨sourcePath, source, destinationPath, destination⟩ := sampleUploadRequest_endpoints
  have sized : unusableTransferPath sampleUploadRequest.source = false ∧
      unusableTransferPath sampleUploadRequest.destination = false := by decide
  have granted : sampleHostWorld.store.mcpCan (rustTrim "agent") .hostFiles (some "router") 0 =
      true := by decide
  have allowed : sampleHostWorld.requireMcpHostFileScope "agent" 0 sampleUploadRequest = .ok () := by
    unfold requireMcpHostFileScope
    split
    · rfl
    · exact if_pos granted
  simp only [validateTransferCommand, validateMcpTransferRoute, sized, source,
    validateLoadReceiverEndpoint, destination, isNonlocalTransferEndpoint_eq, ← remotePath_isSome,
    sourcePath, destinationPath, allowed]
  rfl

theorem sampleUploadRequest_prepared :
    prepareTransferRequestWithHome sampleHostDesktop.crates ⟨.ssh, none, fun _ => true⟩
      sampleUploadRequest .unix (some "/home/user") = .ok sampleUploadRequest := by
  obtain ⟨sourcePath, source, destinationPath, destination⟩ := sampleUploadRequest_endpoints
  have absolute : classifyLocalTransferPath sampleUploadRequest.source .unix = .absolute := by decide
  have checked : ∀ label, validateRemoteTransferPath "/etc/config.txt" label = .ok () := by
    intro label
    unfold validateRemoteTransferPath
    exact if_neg (by decide)
  simp only [prepareTransferRequestWithHome, source, validateLoadReceiverEndpoint, destination,
    isNonlocalTransferEndpoint_eq, ← remotePath_isSome, sourcePath, destinationPath,
    validateRemoteEndpoint, checked, resolveDefaultLocalTransferPathWithHome, absolute,
    not_home_of_absolute absolute]
  rfl

theorem sampleUpload_executed (world : HostFileWorld) (admission : Admission)
    (command : admission.command = .path sampleUploadRequest) :
    (world.executeTransfer sampleHostDesktop admission sampleExecution).map (·.run.opened) =
      .ok [.source] := by
  obtain ⟨sourcePath, source, destinationPath, destination⟩ := sampleUploadRequest_endpoints
  have checked : ∀ label, validateRemoteTransferPath "/etc/config.txt" label = .ok () := by
    intro label
    unfold validateRemoteTransferPath
    exact if_neg (by decide)
  have route : runTransferEngine ⟨.unix, sampleHostDesktop.crates, sampleExecution.entry,
      sampleExecution.tftpServer⟩ sampleUploadRequest =
      ⟨[.source], .ok (.upload sampleUploadRequest.source "/etc/config.txt")⟩ := by
    change transferFileViaLocalOrScp sampleUploadRequest = _
    simp only [transferFileViaLocalOrScp, transferRemoteFile, validateRemoteEndpoint, sourcePath,
      destinationPath, checked]
  have started : world.transferToStart sampleHostDesktop admission sampleExecution =
      .ok (sampleUploadRequest, none) := by
    unfold transferToStart
    rw [command]
  have ready := sampleUploadRequest_prepared
  unfold executeTransfer
  rw [started]
  change Except.map _ (prepareTransferRequestWithHome sampleHostDesktop.crates
    ⟨.ssh, none, fun _ => true⟩ sampleUploadRequest .unix (some "/home/user") >>= _) = _
  rw [ready]
  change Except.ok (runTransferEngine ⟨.unix, sampleHostDesktop.crates, sampleExecution.entry,
      sampleExecution.tftpServer⟩ sampleUploadRequest).opened = _
  rw [route]

def sampleHostEvents : List HostFileEvent :=
  [.request "agent" (.path sampleUploadRequest) 0, .execute 0 sampleExecution]

/-- The sample is let through and opens its source, which its grant allows. -/
theorem sample_transfer_apart :
    ((hostFileMachine sampleHostDesktop).run sampleHostWorld sampleHostEvents).2.map
        (·.run.opened) = [[.source]] ∧
      ∀ executed ∈ ((hostFileMachine sampleHostDesktop).run sampleHostWorld sampleHostEvents).2,
        HostFilesApart sampleHostDesktop executed := by
  have admitted : (hostFileMachine sampleHostDesktop).step sampleHostWorld
      (.request "agent" (.path sampleUploadRequest) 0) =
      ({ sampleHostWorld with
        admitted := [⟨"agent", .path sampleUploadRequest, sampleHostWorld.store, 0⟩] }, []) := by
    simp only [hostFileMachine, sampleUploadRequest_validated]
    rfl
  constructor
  · have executed := sampleUpload_executed { sampleHostWorld with
      admitted := [⟨"agent", .path sampleUploadRequest, sampleHostWorld.store, 0⟩] }
      ⟨"agent", .path sampleUploadRequest, sampleHostWorld.store, 0⟩ rfl
    simp only [sampleHostEvents, Transducer.run, admitted]
    simp only [hostFileMachine, getElem?_cons_zero]
    cases done : executeTransfer sampleHostDesktop { sampleHostWorld with
        admitted := [⟨"agent", .path sampleUploadRequest, sampleHostWorld.store, 0⟩] }
      ⟨"agent", .path sampleUploadRequest, sampleHostWorld.store, 0⟩ sampleExecution with
    | error error =>
      rw [done] at executed
      cases executed
    | ok result =>
      rw [done] at executed
      simpa using Except.ok.inj executed
  · refine host_files_apart (by decide) (fun _ mem => absurd mem not_mem_nil) rfl
      ⟨trivial, ?_, trivial⟩
    rw [admitted]
    exact not_mem_nil

end PortMate
