import PortMate.McpReads

namespace PortMate

open List Bool SessionStore

/-- Two states that are the same to a client that reads under a scope: its grants, and whatever
belongs to a session that one of them lets it read. -/
structure SameReadable (clientId : String) (scope : McpScope) (now : DateTime)
    (first second : ReadState) : Prop where
  grants : (first.store.grants.filter fun grant => grant.clientId = rustTrim clientId) =
    second.store.grants.filter fun grant => grant.clientId = rustTrim clientId
  profiles : (first.store.profiles.filter fun profile =>
      readableBy clientId first.store.grants scope now profile.id) =
    second.store.profiles.filter fun profile =>
      readableBy clientId first.store.grants scope now profile.id
  runtimes : (first.store.runtimes.filter fun runtime =>
      readableBy clientId first.store.grants scope now runtime.sessionId) =
    second.store.runtimes.filter fun runtime =>
      readableBy clientId first.store.grants scope now runtime.sessionId
  events : (first.store.events.filter fun event =>
      readableBy clientId first.store.grants scope now event.sessionId) =
    second.store.events.filter fun event =>
      readableBy clientId first.store.grants scope now event.sessionId
  transfers : (first.store.transfers.filter fun transfer =>
      readableBy clientId first.store.grants scope now transfer.sessionId) =
    second.store.transfers.filter fun transfer =>
      readableBy clientId first.store.grants scope now transfer.sessionId
  timeline : (first.store.timeline.filter fun mark =>
      readableBy clientId first.store.grants scope now mark.sessionId) =
    second.store.timeline.filter fun mark =>
      readableBy clientId first.store.grants scope now mark.sessionId
  sysmon : (first.store.sysmon.filter fun snapshot =>
      readableBy clientId first.store.grants scope now snapshot.sessionId) =
    second.store.sysmon.filter fun snapshot =>
      readableBy clientId first.store.grants scope now snapshot.sessionId
  audit : (first.store.audit.filter fun record =>
      record.sessionId.any (readableBy clientId first.store.grants scope now)) =
    second.store.audit.filter fun record =>
      record.sessionId.any (readableBy clientId first.store.grants scope now)
  screens : ∀ sessionId, readableBy clientId first.store.grants scope now sessionId = true →
    first.screen sessionId = second.screen sessionId

/-- A request of a client with these grants has one answer in all states that are the same to it. -/
def NonInterfering (texts : ReadTexts) (command : McpReadCommand) (request : IpcRequest)
    (grants : List McpGrant) (now : DateTime) : Prop :=
  ∀ first second : ReadState, first.store.grants = grants →
    SameReadable request.clientId command.scope now first second →
    executeMcpRead texts first now command request = executeMcpRead texts second now command request

section Lists

variable {α : Type} {keeps kept : α → Bool} {first second : List α}

theorem filter_within (within : ∀ item, keeps item = true → kept item = true) (items : List α) :
    items.filter keeps = (items.filter kept).filter keeps := by
  rw [filter_filter]
  refine filter_congr fun item _ => ?_
  rw [Bool.eq_iff_iff, and_eq_true]
  exact ⟨fun here => ⟨here, within item here⟩, fun both => both.1⟩

theorem same_within (same : first.filter kept = second.filter kept)
    (within : ∀ item, keeps item = true → kept item = true) :
    first.filter keeps = second.filter keeps := by
  rw [filter_within within first, filter_within within second, same]

theorem find_within (same : first.filter kept = second.filter kept)
    (within : ∀ item, keeps item = true → kept item = true) :
    first.find? keeps = second.find? keeps := by
  rw [← head?_filter, ← head?_filter, same_within same within]

end Lists

def summaryOf (store : SessionStore) (profile : SessionProfile) : Option SessionSummary :=
  (store.runtimes.find? fun runtime => runtime.sessionId = profile.id).map fun runtime =>
    let (logLines, lastLine) := ((logStats store.events).lookup profile.id).getD (0, none)
    { profile, runtime, logLines, lastLine }

theorem summaries_filter (store : SessionStore) (keeps : String → Bool) :
    (store.summaries.filter fun summary => keeps summary.profile.id) =
      (store.profiles.filter fun profile => keeps profile.id).filterMap (summaryOf store) := by
  have named : ∀ profile summary, summaryOf store profile = some summary →
      summary.profile = profile := by
    intro profile summary made
    obtain ⟨runtime, -, rfl⟩ := Option.map_eq_some_iff.mp made
    rfl
  change (store.profiles.filterMap (summaryOf store)).filter _ = _
  induction store.profiles with
  | nil => rfl
  | cons profile profiles ih =>
    rw [filterMap_cons, filter_cons]
    cases made : summaryOf store profile with
    | none =>
      rw [ih]
      split
      · rw [filterMap_cons, made]
      · rfl
    | some summary =>
      dsimp only
      rw [filter_cons, named profile summary made, ih]
      split
      · rw [filterMap_cons, made]
      · rfl

theorem summaries_named (store : SessionStore) (sessionId : String) :
    (store.summaries.find? fun summary => summary.profile.id = sessionId) =
      ((store.profiles.filter fun profile => profile.id = sessionId).filterMap
        (summaryOf store)).head? := by
  rw [← head?_filter]
  exact congrArg List.head? (summaries_filter store fun id => id = sessionId)

section Same

variable {clientId : String} {scope : McpScope} {now : DateTime} {first second : ReadState}
  (same : SameReadable clientId scope now first second)

include same

theorem SameReadable.mcpCanRead (other : McpScope) (sessionId : Option String) :
    first.store.mcpCanRead clientId other sessionId now =
      second.store.mcpCanRead clientId other sessionId now := by
  unfold SessionStore.mcpCanRead mcpCan
  rw [same.grants]

theorem SameReadable.readable (other : McpScope) (sessionId : String) :
    readableBy clientId first.store.grants other now sessionId =
      readableBy clientId second.store.grants other now sessionId := by
  unfold readableBy
  rw [same.grants]

theorem SameReadable.require {request : IpcRequest} (own : request.clientId = clientId)
    (other : McpScope) (sessionId : Option String) :
    requireMcpReadScope first.store request other sessionId now =
      requireMcpReadScope second.store request other sessionId now := by
  unfold requireMcpReadScope
  rw [own, same.mcpCanRead]

theorem SameReadable.summaryOf {profile : SessionProfile}
    (readable : readableBy clientId first.store.grants scope now profile.id = true) :
    summaryOf first.store profile = summaryOf second.store profile := by
  have runtimes : (first.store.runtimes.find? fun runtime => runtime.sessionId = profile.id) =
      second.store.runtimes.find? fun runtime => runtime.sessionId = profile.id := by
    refine find_within same.runtimes fun runtime here => ?_
    rwa [of_decide_eq_true here]
  have texts : textEvents first.store.events profile.id =
      textEvents second.store.events profile.id := by
    refine same_within same.events fun event here => ?_
    rwa [of_decide_eq_true (and_eq_true_iff.mp here).1]
  unfold PortMate.summaryOf
  rw [runtimes, logStats_real, logStats_real, texts]

theorem SameReadable.summaries (keeps : String → Bool)
    (within : ∀ id, keeps id = true → readableBy clientId first.store.grants scope now id = true) :
    (first.store.profiles.filter fun profile => keeps profile.id).filterMap
        (PortMate.summaryOf first.store) =
      (second.store.profiles.filter fun profile => keeps profile.id).filterMap
        (PortMate.summaryOf second.store) := by
  rw [same_within same.profiles fun profile => within profile.id]
  refine filterMap_congr fun profile mem => same.summaryOf ?_
  exact within _ (mem_filter.mp mem).2

theorem SameReadable.tailLog {sessionId : String}
    (readable : readableBy clientId first.store.grants scope now sessionId = true) (limit : Nat) :
    first.store.tailLog sessionId limit = second.store.tailLog sessionId limit := by
  unfold SessionStore.tailLog
  rw [take_reverse_filter, take_reverse_filter]
  rw [same_within same.events fun event here => by rwa [of_decide_eq_true here]]

theorem SameReadable.bundle (texts : ReadTexts) {sessionId : String}
    (readable : readableBy clientId first.store.grants scope now sessionId = true) :
    first.store.exportSessionBundleRedacted texts sessionId =
      second.store.exportSessionBundleRedacted texts sessionId := by
  have summary : (first.store.summaries.find? fun summary => summary.profile.id = sessionId) =
      second.store.summaries.find? fun summary => summary.profile.id = sessionId := by
    rw [summaries_named, summaries_named]
    refine congrArg List.head? (same.summaries (fun id => id = sessionId) fun id here => ?_)
    rwa [of_decide_eq_true here]
  have timeline : first.store.timelineFor sessionId = second.store.timelineFor sessionId :=
    same_within same.timeline fun mark here => by rwa [of_decide_eq_true here]
  have sysmon : first.store.sysmonFor sessionId = second.store.sysmonFor sessionId := by
    unfold sysmonFor
    rw [← head?_filter, ← head?_filter, filter_reverse, filter_reverse]
    rw [same_within same.sysmon fun snapshot here => by rwa [of_decide_eq_true here]]
  have transfers : (first.store.transfers.filter fun transfer => transfer.sessionId = sessionId) =
      second.store.transfers.filter fun transfer => transfer.sessionId = sessionId :=
    same_within same.transfers fun transfer here => by rwa [of_decide_eq_true here]
  have audit : (first.store.audit.filter fun record => record.sessionId = some sessionId) =
      second.store.audit.filter fun record => record.sessionId = some sessionId := by
    refine same_within same.audit fun record here => ?_
    rw [of_decide_eq_true here]
    exact readable
  unfold exportSessionBundleRedacted
  rw [same.tailLog readable, summary, timeline, sysmon, transfers, audit]

end Same

variable {now : DateTime} {first second : ReadState}

theorem SameReadable.searches {clientId : String}
    (same : SameReadable clientId .readLogs now first second) (texts : ReadTexts) (query : String)
    (sessionId : Option String) (limit : Nat) :
    first.store.mcpSearchLogs texts clientId query sessionId limit now =
      second.store.mcpSearchLogs texts clientId query sessionId limit now := by
  have readable : ∀ event, searchMatches texts first.store clientId query sessionId now event =
      true → readableBy clientId first.store.grants .readLogs now event.sessionId = true :=
    fun event here => (and_eq_true_iff.mp here).2
  have matched : searchMatches texts first.store clientId query sessionId now =
      searchMatches texts second.store clientId query sessionId now := by
    funext event
    unfold searchMatches
    rw [← same.readable]
    by_cases here : readableBy clientId first.store.grants .readLogs now event.sessionId = true
    · have listed : (first.store.profiles.any fun profile => profile.id = event.sessionId) =
          second.store.profiles.any fun profile => profile.id = event.sessionId := by
        rw [← isSome_find?, ← isSome_find?,
          find_within same.profiles fun profile named => by rwa [of_decide_eq_true named]]
      rw [listed]
    · rw [not_eq_true] at here
      rw [here, Bool.and_false, Bool.and_false]
  rw [mcp_search_shows_readable, mcp_search_shows_readable, ← matched,
    same_within same.events readable]

theorem bind_congr_ok {ε α β : Type} {x : Except ε α} {f g : α → Except ε β}
    (agree : ∀ a, x = .ok a → f a = g a) : (x >>= f) = x >>= g := by
  cases x with
  | error e => rfl
  | ok a => exact agree a rfl

variable {request : IpcRequest}

theorem require_readable {store : SessionStore} {scope : McpScope} {sessionId : String}
    {done : Unit} (passed : requireMcpReadScope store request scope (some sessionId) now = .ok done) :
    readableBy request.clientId store.grants scope now sessionId = true := by
  obtain ⟨_, -, passed⟩ := except_bind_eq_ok passed
  split at passed
  next allowed => exact (and_eq_true_iff.mp allowed).2
  next => cases passed

theorem list_sessions_same (same : SameReadable request.clientId .readSessions now first second)
    (texts : ReadTexts) :
    executeMcpRead texts first now .listSessions request =
      executeMcpRead texts second now .listSessions request := by
  unfold executeMcpRead
  simp only
  rw [same.require rfl]
  refine bind_congr_ok fun _ _ => ?_
  rw [summaries_filter first.store fun id =>
      first.store.mcpCanRead request.clientId .readSessions (some id) now,
    summaries_filter second.store fun id =>
      second.store.mcpCanRead request.clientId .readSessions (some id) now]
  simp only [← same.mcpCanRead]
  rw [same.summaries (fun id => first.store.mcpCanRead request.clientId .readSessions (some id) now)
    fun id here => (and_eq_true_iff.mp here).2]

theorem list_transfers_same (same : SameReadable request.clientId .readTransfers now first second)
    (texts : ReadTexts) :
    executeMcpRead texts first now .listTransfers request =
      executeMcpRead texts second now .listTransfers request := by
  unfold executeMcpRead
  simp only
  rw [same.require rfl]
  refine bind_congr_ok fun _ _ => ?_
  simp only [← same.mcpCanRead]
  have listed : (first.store.transfers.filter fun transfer =>
        ((request.args.stringAt? "sessionId").all fun wanted => transfer.sessionId = wanted) &&
          first.store.mcpCanRead request.clientId .readTransfers (some transfer.sessionId) now) =
      second.store.transfers.filter fun transfer =>
        ((request.args.stringAt? "sessionId").all fun wanted => transfer.sessionId = wanted) &&
          first.store.mcpCanRead request.clientId .readTransfers (some transfer.sessionId) now :=
    same_within same.transfers fun transfer here =>
      (and_eq_true_iff.mp (and_eq_true_iff.mp here).2).2
  rw [listed]

theorem get_transfer_same (same : SameReadable request.clientId .readTransfers now first second)
    (every : ∀ id, ipcStringArg request.args "transferId" = .ok id → ∀ sessionId, readableBy request.clientId first.store.grants .readTransfers now sessionId = true)
    (texts : ReadTexts) :
    executeMcpRead texts first now .getTransfer request =
      executeMcpRead texts second now .getTransfer request := by
  unfold executeMcpRead
  simp only
  refine bind_congr_ok fun id named => ?_
  have transfers := same.transfers
  rw [filter_eq_self.mpr fun transfer _ => every id named transfer.sessionId,
    filter_eq_self.mpr fun transfer _ => every id named transfer.sessionId] at transfers
  unfold transferById
  rw [transfers]
  simp only [same.require rfl]

theorem mcp_read_same {command : McpReadCommand}
    (same : SameReadable request.clientId command.scope now first second)
    (every : command = .getTransfer → ∀ id, ipcStringArg request.args "transferId" = .ok id → ∀ sessionId, readableBy request.clientId first.store.grants .readTransfers now sessionId = true)
    (texts : ReadTexts) :
    executeMcpRead texts first now command request =
      executeMcpRead texts second now command request := by
  cases command with
  | listSessions => exact list_sessions_same same texts
  | listTransfers => exact list_transfers_same same texts
  | getTransfer => exact get_transfer_same same (every rfl) texts
  | readScreen =>
    refine bind_congr_ok fun id _ => ?_
    rw [same.require rfl]
    refine bind_congr_ok fun _ passed => ?_
    rw [same.screens id ((same.readable _ _).trans (require_readable passed))]
  | tailLog =>
    refine bind_congr_ok fun id _ => ?_
    rw [same.require rfl]
    refine bind_congr_ok fun _ passed => ?_
    rw [same.tailLog ((same.readable _ _).trans (require_readable passed))]
  | searchLogs =>
    refine bind_congr_ok fun query _ => ?_
    simp only
    rw [same.require rfl, same.searches]
  | exportSessionBundle =>
    refine bind_congr_ok fun id _ => ?_
    rw [same.require rfl]
    refine bind_congr_ok fun _ passed => ?_
    rw [same.bundle texts ((same.readable _ _).trans (require_readable passed))]

/-- A state with these grants and nothing else but some transfers. -/
def transfersOnly (grants : List McpGrant) (transfers : List TransferTask) : ReadState where
  store := { default with grants, transfers }
  contents := fun _ => ""

def transferOf (id sessionId : String) : TransferTask :=
  ⟨id, sessionId, .sftp, "", "", 0, 0, .queued, none, none, none⟩

theorem transfersOnly_same {clientId sessionId : String} {grants : List McpGrant}
    (hidden : readableBy clientId grants .readTransfers now sessionId = false) (id : String) :
    SameReadable clientId .readTransfers now (transfersOnly grants [])
      (transfersOnly grants [transferOf id sessionId]) := by
  refine ⟨rfl, rfl, rfl, rfl, ?_, rfl, rfl, rfl, fun _ _ => rfl⟩
  have gone : [transferOf id sessionId].filter (fun transfer =>
      readableBy clientId grants .readTransfers now transfer.sessionId) = [] := by
    rw [filter_cons_of_neg (by rw [transferOf, hidden]; exact Bool.false_ne_true)]
    rfl
  exact gone.symm

theorem get_transfer_absent {state : ReadState} {id : String}
    (named : ipcStringArg request.args "transferId" = .ok id)
    (absent : state.store.transferById id = none) (texts : ReadTexts) (now : DateTime) :
    executeMcpRead texts state now .getTransfer request =
      .error "unknown or unavailable transfer" := by
  simp only [executeMcpRead, named, bind, Except.bind, absent]

theorem require_refused {store : SessionStore} {sessionId : String}
    (hidden : readableBy request.clientId store.grants .readTransfers now sessionId = false) :
    ∃ error, requireMcpReadScope store request .readTransfers (some sessionId) now =
        .error error ∧ error ≠ "unknown or unavailable transfer" := by
  have refused : store.mcpCanRead request.clientId .readTransfers (some sessionId) now = false :=
    and_eq_false_iff.mpr (.inr hidden)
  by_cases valid : printableId sessionId maxMcpGrantSessionIdBytes = true
  · refine ⟨"MCP read grant does not permit ReadTransfers for the requested session", ?_, by decide⟩
    simp only [requireMcpReadScope, validateMcpSessionId, if_pos valid, refused]
    rfl
  · refine ⟨"MCP session ID must be non-empty, printable, and at most 128 bytes", ?_, by decide⟩
    simp only [requireMcpReadScope, validateMcpSessionId, if_neg valid]
    rfl

theorem get_transfer_hidden {state : ReadState} {id : String} {transfer : TransferTask}
    (named : ipcStringArg request.args "transferId" = .ok id)
    (known : state.store.transferById id = some transfer)
    (hidden : readableBy request.clientId state.store.grants .readTransfers now transfer.sessionId = false)
    (texts : ReadTexts) :
    ∃ error, executeMcpRead texts state now .getTransfer request = .error error ∧
      error ≠ "unknown or unavailable transfer" := by
  obtain ⟨error, refused, other⟩ := require_refused hidden
  refine ⟨error, ?_, other⟩
  simp only [executeMcpRead, named, bind, Except.bind, known, refused]

theorem interferes_of_hidden {grants : List McpGrant} {id sessionId : String}
    (named : ipcStringArg request.args "transferId" = .ok id)
    (unread : readableBy request.clientId grants .readTransfers now sessionId = false)
    (texts : ReadTexts) : ¬ NonInterfering texts .getTransfer request grants now := by
  intro silent
  have answers := silent (transfersOnly grants []) (transfersOnly grants [transferOf id sessionId])
    rfl (transfersOnly_same unread id)
  have known : (transfersOnly grants [transferOf id sessionId]).store.transferById id =
      some (transferOf id sessionId) := find?_cons_of_pos (decide_eq_true rfl)
  obtain ⟨error, refused, other⟩ := get_transfer_hidden named known unread texts
  rw [get_transfer_absent named rfl, refused] at answers
  exact other (Except.error.inj answers).symm

/-- The reads keep what a client may not read from it, except that it can find out with
`get_transfer` whether some session has a transfer of an id. -/
theorem mcp_reads_interfere_iff (texts : ReadTexts) (command : McpReadCommand)
    (request : IpcRequest) (grants : List McpGrant) (now : DateTime) :
    NonInterfering texts command request grants now ↔
      (command = .getTransfer → ∀ id, ipcStringArg request.args "transferId" = .ok id →
        ∀ sessionId,
          readableBy request.clientId grants .readTransfers now sessionId = true) := by
  constructor
  · rintro silent rfl id named sessionId
    by_contra unread
    exact interferes_of_hidden named (eq_false_of_not_eq_true unread) texts silent
  · rintro every first second rfl same
    exact mcp_read_same same every texts

/-- A client that may see the transfers of the session `s1`. -/
def transferReader : McpGrant := ⟨"reader", "reader", [.readTransfers], ["s1"], false, none, none⟩

def transferRequest : IpcRequest :=
  ⟨"reader", false, "get_transfer", .obj [("transferId", .str "t1")]⟩

/-- Its two answers for an id: there is no such transfer, and there is one of the session `s2`. -/
theorem get_transfer_reveals :
    ¬ NonInterfering plainTexts .getTransfer transferRequest [transferReader] 0 := by
  have named : ipcStringArg transferRequest.args "transferId" = .ok "t1" := rfl
  have unread : readableBy transferRequest.clientId [transferReader] .readTransfers 0 "s2" =
      false := by
    decide
  exact interferes_of_hidden named unread plainTexts

end PortMate
