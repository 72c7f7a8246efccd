import Mathlib.Data.List.Nodup
import PortMate.McpAuthorization

namespace PortMate.ApprovalBroker

open List

def maxPendingMcpApprovals : Nat := 32

structure McpApprovalTarget where
  kind : String
  id : String
  label : String
  deriving DecidableEq

structure McpApprovalRequest where
  id : String
  clientId : String
  action : String
  sessionId : String
  scope : String
  target : Option McpApprovalTarget
  createdAt : DateTime
  expiresAt : DateTime
  deriving DecidableEq

/-- A request with the sender of its channel; `response` numbers the channel. -/
structure PendingMcpApproval where
  request : McpApprovalRequest
  response : Nat
  deriving DecidableEq

/-- Where a call of `await_mcp_approval_with_emitter` is; `leaving` is about to remove its entry,
because the request could not be shown or has timed out, and says whether the receiver of the
channel still is there. -/
inductive AwaitStage
  | inserted
  | shown
  | waiting
  | received (approved : Bool)
  | leaving (unshown : Option String) (receiving : Bool)
  | done (outcome : Except String McpApprovalOutcome)

def AwaitStage.receiving : AwaitStage → Bool
  | .inserted | .shown | .waiting => true
  | .leaving _ receiving => receiving
  | .received _ | .done _ => false

/-- A call of `await_mcp_approval_with_emitter` and the value sent into its channel. -/
structure Requester where
  request : McpApprovalRequest
  stage : AwaitStage
  value : Option Bool

/-- Where a call of `respond_mcp_approval_inner` is; `sent` has read the clock. -/
inductive RespondStage
  | refused (error : String)
  | taken (pending : PendingMcpApproval)
  | sent (pending : PendingMcpApproval) (now : DateTime) (result : Except String Unit)

structure ResponseCall where
  approvalId : String
  approved : Bool
  stage : RespondStage

/-- The pending approvals, and the calls for requests and responses in the order in which they
began; a request's channel has the number of its call. -/
structure State where
  pending : List PendingMcpApproval
  requesters : List Requester
  responses : List ResponseCall

def State.empty : State :=
  { pending := [], requesters := [], responses := [] }

/-- `HashMap::remove`. -/
def State.remove (state : State) (id : String) : State :=
  { state with pending := state.pending.filter fun pending => pending.request.id ≠ id }

def State.find (state : State) (id : String) : Option PendingMcpApproval :=
  state.pending.find? fun pending => pending.request.id = id

/-- Whether a value sent into a channel arrives. -/
def State.open? (state : State) (channel : Nat) : Bool :=
  match state.requesters[channel]? with
  | some requester => requester.stage.receiving
  | none => false

/-- `oneshot::Sender::send`. -/
def State.send (state : State) (channel : Nat) (approved : Bool) : State :=
  { state with
    requesters := state.requesters.modify channel fun requester =>
      if requester.stage.receiving then { requester with value := some approved } else requester }

def State.goto (state : State) (channel : Nat) (stage : AwaitStage) : State :=
  { state with
    requesters := state.requesters.modify channel fun requester =>
      { requester with stage := stage } }

def State.returned (state : State) (call : Nat) (stage : RespondStage) : State :=
  { state with
    responses := state.responses.modify call fun response => { response with stage := stage } }

/-- `cleanup_deleted_session_runtime_state`, as far as the approvals go. -/
def State.cleanup (state : State) : List String → State
  | [] => state
  | id :: ids =>
    match state.find id with
    | some pending => ((state.remove id).send pending.response false).cleanup ids
    | none => state.cleanup ids

/-- One step of a request, of a response, or the deletion of a session. Ids of requests are new;
the clock and the timer are free. -/
inductive Event
  | request (request : McpApprovalRequest) (now : DateTime)
  | emit (channel : Nat) (result : Except String Unit)
  | measure (channel : Nat) (now : DateTime)
  | receive (channel : Nat)
  | elapse (channel : Nat)
  | conclude (channel : Nat) (now : DateTime)
  | leave (channel : Nat)
  | respond (approvalId : String) (approved : Bool)
  | answer (call : Nat) (now : DateTime)
  | delete (sessionId : String)

section Steps

variable (parseUuid : String → Option String) (timeout : Nat)

def requestStep (state : State) (request : McpApprovalRequest) (now : DateTime) : Option State :=
  if state.requesters.any fun requester => requester.request.id = request.id then none
  else
    let begun (stage : AwaitStage) : State :=
      { state with
        requesters := state.requesters ++ [{ request := request, stage := stage, value := none }] }
    if request.expiresAt ≤ now then some (begun (.done (.ok .timedOut)))
    else if state.pending.length ≥ maxPendingMcpApprovals then
      some (begun (.done (.error s!"MCP approval queue limit exceeded ({maxPendingMcpApprovals})")))
    else
      let inserted := (begun .inserted).remove request.id
      some { inserted with
        pending := inserted.pending ++
          [{ request := request, response := state.requesters.length }] }

def awaitStep (state : State) (requester : Requester) (channel : Nat) :
    AwaitStage → Event → Option State
  | .inserted, .emit _ (.error error) => some (state.goto channel (.leaving (some error) true))
  | .inserted, .emit _ (.ok ()) => some (state.goto channel .shown)
  | .shown, .measure _ now =>
    if min (requester.request.expiresAt - now).toNat timeout = 0 then
      some (state.goto channel (.leaving none true))
    else some (state.goto channel .waiting)
  | .waiting, .receive _ =>
    requester.value.map fun approved => state.goto channel (.received approved)
  | .waiting, .elapse _ => some (state.goto channel (.leaving none false))
  | .received approved, .conclude _ now =>
    some (state.goto channel (.done (.ok (
      if approved then if requester.request.expiresAt > now then .approved else .timedOut
      else .denied))))
  | .leaving unshown _, .leave _ =>
    some ((state.remove requester.request.id).goto channel
      (.done (unshown.elim (.ok .timedOut) .error)))
  | _, _ => none

def respondStep (state : State) (approvalId : String) (approved : Bool) : State :=
  let call (state : State) (stage : RespondStage) : State :=
    { state with
      responses := state.responses ++
        [{ approvalId := approvalId, approved := approved, stage := stage }] }
  match parseUuid approvalId with
  | none => call state (.refused "invalid MCP approval ID")
  | some id =>
    match state.find id with
    | none => call state (.refused "MCP approval is no longer pending")
    | some pending => call (state.remove id) (.taken pending)

def answerStep (state : State) (call : Nat) (now : DateTime) : Option State :=
  match state.responses[call]? with
  | some { approved, stage := .taken pending, .. } =>
    some ((state.send pending.response (approved && pending.request.expiresAt > now)).returned call
      (.sent pending now (if state.open? pending.response then .ok ()
        else .error "MCP approval requester is no longer waiting")))
  | _ => none

def step (state : State) : Event → Option State
  | .request request now => requestStep state request now
  | .respond approvalId approved => some (respondStep parseUuid state approvalId approved)
  | .answer call now => answerStep state call now
  | .delete sessionId =>
    some (state.cleanup ((state.pending.filter fun pending =>
      pending.request.sessionId = sessionId).map fun pending => pending.request.id))
  | .emit channel result => awaiting state channel (.emit channel result)
  | .measure channel now => awaiting state channel (.measure channel now)
  | .receive channel => awaiting state channel (.receive channel)
  | .elapse channel => awaiting state channel (.elapse channel)
  | .conclude channel now => awaiting state channel (.conclude channel now)
  | .leave channel => awaiting state channel (.leave channel)
where
  awaiting (state : State) (channel : Nat) (event : Event) : Option State :=
    state.requesters[channel]?.bind fun requester =>
      awaitStep timeout state requester channel requester.stage event

end Steps

section Invariant

variable {parseUuid : String → Option String} {timeout : Nat}

/-- The entry that a response took out of the pending ones. -/
def RespondStage.pending? : RespondStage → Option PendingMcpApproval
  | .refused _ => none
  | .taken pending => some pending
  | .sent pending _ _ => some pending

/-- A positive response to a request whose clock was read before the request expired. -/
def State.Granted (parseUuid : String → Option String) (state : State)
    (pending : PendingMcpApproval) : Prop :=
  ∃ call ∈ state.responses, call.approved = true ∧
    parseUuid call.approvalId = some pending.request.id ∧
      ∃ now result, call.stage = .sent pending now result ∧ now < pending.request.expiresAt

/-- The entries whose sender was not used yet; `loose` is what a deletion has in hand. -/
def State.Unsent (state : State) (loose : List PendingMcpApproval)
    (pending : PendingMcpApproval) : Prop :=
  pending ∈ state.pending ∨ pending ∈ loose ∨ ∃ call ∈ state.responses, call.stage = .taken pending

structure State.Sound (parseUuid : String → Option String) (state : State)
    (loose : List PendingMcpApproval) : Prop where
  count : state.pending.length ≤ maxPendingMcpApprovals
  distinct : ∀ (i j : Nat) (requester other : Requester), state.requesters[i]? = some requester →
    state.requesters[j]? = some other → requester.request.id = other.request.id → i = j
  single : (state.pending.map (·.response) ++ loose.map (·.response)).Nodup
  once : ∀ (m n : Nat) (call other : ResponseCall) (pending pending' : PendingMcpApproval),
    state.responses[m]? = some call → state.responses[n]? = some other →
      call.stage.pending? = some pending → other.stage.pending? = some pending' →
        pending.response = pending'.response → m = n
  apart : ∀ pending : PendingMcpApproval, pending ∈ state.pending ∨ pending ∈ loose →
    ∀ call ∈ state.responses, ∀ taken, call.stage.pending? = some taken →
      taken.response ≠ pending.response
  unsent : ∀ pending, state.Unsent loose pending →
    ∃ requester, state.requesters[pending.response]? = some requester ∧
      requester.request = pending.request ∧ requester.value = none
  present : ∀ pending, pending ∈ state.pending → ∀ requester,
    state.requesters[pending.response]? = some requester →
      ∀ outcome, requester.stage ≠ .done outcome
  calls : ∀ call ∈ state.responses, ∀ pending, call.stage.pending? = some pending →
    parseUuid call.approvalId = some pending.request.id ∧
      ∃ requester, state.requesters[pending.response]? = some requester ∧
        requester.request = pending.request
  granted : ∀ (i : Nat) (requester : Requester), state.requesters[i]? = some requester →
    requester.value = some true → state.Granted parseUuid ⟨requester.request, i⟩
  received : ∀ requester ∈ state.requesters, ∀ approved,
    requester.stage = .received approved → requester.value = some approved
  concluded : ∀ requester ∈ state.requesters,
    requester.stage = .done (.ok .approved) → requester.value = some true

theorem empty_sound : State.empty.Sound parseUuid [] where
  count := Nat.zero_le _
  distinct := fun _ _ _ _ absent => absurd absent.symm (by simp [State.empty])
  single := nodup_nil
  once := fun _ _ _ _ _ _ absent => absurd absent.symm (by simp [State.empty])
  apart := fun _ absent => absurd absent (by simp [State.empty])
  unsent := fun _ absent => absurd absent (by simp [State.empty, State.Unsent])
  present := fun _ absent => absurd absent (by simp [State.empty])
  calls := fun _ absent => absurd absent (by simp [State.empty])
  granted := fun _ _ absent => absurd absent.symm (by simp [State.empty])
  received := fun _ absent => absurd absent (by simp [State.empty])
  concluded := fun _ absent => absurd absent (by simp [State.empty])

variable {state : State} {loose : List PendingMcpApproval}

theorem State.Sound.fewer (sound : state.Sound parseUuid loose)
    {pending loose' : List PendingMcpApproval} (sub : pending.Sublist state.pending)
    (sub' : loose'.Sublist loose) :
    ({ state with pending := pending } : State).Sound parseUuid loose' where
  count := Nat.le_trans sub.length_le sound.count
  distinct := sound.distinct
  single := sound.single.sublist ((sub.map _).append (sub'.map _))
  once := sound.once
  apart := fun entry mem => sound.apart entry (mem.imp (fun mem => sub.subset mem)
    fun mem => sub'.subset mem)
  unsent := fun entry mem => sound.unsent entry (mem.imp (fun mem => sub.subset mem)
    fun mem => mem.imp (fun mem => sub'.subset mem) id)
  present := fun entry mem => sound.present entry (sub.subset mem)
  calls := sound.calls
  granted := sound.granted
  received := sound.received
  concluded := sound.concluded

variable {pending : PendingMcpApproval}

theorem find_pending {id : String} (found : state.find id = some pending) :
    pending ∈ state.pending ∧ pending.request.id = id :=
  ⟨mem_of_find?_eq_some found, by simpa using find?_some found⟩

theorem State.Sound.remove (sound : state.Sound parseUuid loose) {id : String}
    (found : state.find id = some pending) :
    (state.remove id).Sound parseUuid (pending :: loose) := by
  obtain ⟨mem, named⟩ := find_pending found
  have kept : (state.remove id).pending.Sublist state.pending := filter_sublist
  have fewer := sound.fewer kept (List.Sublist.refl loose)
  have gone : pending ∉ (state.remove id).pending := by
    simp [State.remove, named]
  have nodup := nodup_append.mp sound.single
  have inj : ∀ other ∈ state.pending, other.response = pending.response → other = pending :=
    fun other mem' same => inj_on_of_nodup_map nodup.1 mem' mem same
  refine { fewer with single := ?_, apart := ?_, unsent := ?_ }
  · refine nodup_append.mpr ⟨nodup.1.sublist (kept.map _), ?_, ?_⟩
    · refine nodup_cons.mpr ⟨fun mem' => ?_, nodup.2.1⟩
      exact nodup.2.2 _ (mem_map_of_mem mem) _ mem' rfl
    · intro channel mem' channel' mem'' same
      subst same
      obtain ⟨other, left, rfl⟩ := mem_map.mp mem'
      obtain first | rest := mem_cons.mp mem''
      · exact gone (inj other (kept.subset left) first ▸ left)
      · exact nodup.2.2 _ (mem_map_of_mem (kept.subset left)) _ rest rfl
  · rintro entry (left | left)
    · exact sound.apart entry (.inl (kept.subset left))
    · obtain rfl | left := mem_cons.mp left
      · exact sound.apart entry (.inl mem)
      · exact sound.apart entry (.inr left)
  · rintro entry (left | left | held)
    · exact sound.unsent entry (.inl (kept.subset left))
    · obtain rfl | left := mem_cons.mp left
      · exact sound.unsent entry (.inl mem)
      · exact sound.unsent entry (.inr (.inl left))
    · exact sound.unsent entry (.inr (.inr held))

theorem getElem?_modify_some {α : Type} {list : List α} {i j : Nat} {f : α → α} {item : α}
    (found : (list.modify i f)[j]? = some item) :
    ∃ before, list[j]? = some before ∧ item = if i = j then f before else before := by
  rw [getElem?_modify] at found
  obtain ⟨before, here, rfl⟩ := Option.map_eq_some_iff.mp found
  exact ⟨before, here, rfl⟩

variable {channel : Nat}

/-- The parts of the invariant that a change to requesters which keeps their requests has to show
again. -/
theorem State.Sound.requesters (sound : state.Sound parseUuid loose) {f : Requester → Requester}
    (same : ∀ requester, (f requester).request = requester.request)
    (unsent : ∀ pending, state.Unsent loose pending → pending.response = channel → ∀ requester, state.requesters[channel]? = some requester → (f requester).value = none)
    (present : ∀ pending ∈ state.pending, pending.response = channel → ∀ requester, state.requesters[channel]? = some requester → ∀ outcome, (f requester).stage ≠ .done outcome)
    (granted : ∀ requester, state.requesters[channel]? = some requester → (f requester).value = some true → state.Granted parseUuid ⟨requester.request, channel⟩)
    (received : ∀ requester, state.requesters[channel]? = some requester → ∀ approved, (f requester).stage = .received approved → (f requester).value = some approved)
    (concluded : ∀ requester, state.requesters[channel]? = some requester → (f requester).stage = .done (.ok .approved) → (f requester).value = some true) :
    ({ state with requesters := state.requesters.modify channel f } : State).Sound
      parseUuid loose := by
  have back {j : Nat} {requester : Requester}
      (found : (state.requesters.modify channel f)[j]? = some requester) :
      ∃ before, state.requesters[j]? = some before ∧
        requester = (if channel = j then f before else before) ∧
          requester.request = before.request := by
    obtain ⟨before, here, rfl⟩ := getElem?_modify_some found
    refine ⟨before, here, rfl, ?_⟩
    split
    · exact same before
    · rfl
  have forth {j : Nat} {before : Requester} (here : state.requesters[j]? = some before) :
      (state.requesters.modify channel f)[j]? =
        some (if channel = j then f before else before) := by
    rw [getElem?_modify, here]
    rfl
  refine
    { sound with
      distinct := ?_, unsent := ?_, present := ?_, calls := ?_, granted := ?_
      received := ?_, concluded := ?_ }
  · intro i j requester other found found' named
    obtain ⟨before, here, -, kept⟩ := back found
    obtain ⟨before', here', -, kept'⟩ := back found'
    rw [kept, kept'] at named
    exact sound.distinct i j before before' here here' named
  · intro pending mem
    obtain ⟨requester, here, asked, empty⟩ := sound.unsent pending mem
    refine ⟨_, forth here, ?_, ?_⟩
    · split
      · exact (same requester).trans asked
      · exact asked
    · split
      next own =>
        subst own
        exact unsent pending mem rfl requester here
      next => exact empty
  · intro pending mem requester found outcome
    obtain ⟨before, here, rfl, -⟩ := back found
    split
    next own => exact present pending mem own.symm before (own ▸ here) outcome
    next => exact sound.present pending mem before here outcome
  · intro call mem pending taken
    obtain ⟨parsed, requester, here, asked⟩ := sound.calls call mem pending taken
    refine ⟨parsed, _, forth here, ?_⟩
    split
    · exact (same requester).trans asked
    · exact asked
  · intro i requester found approved
    obtain ⟨before, here, rfl, kept⟩ := back found
    rw [kept]
    split at approved
    next own =>
      subst own
      exact granted before here approved
    next => exact sound.granted i before here approved
  · intro requester mem approved stage
    obtain ⟨j, found⟩ := mem_iff_getElem?.mp mem
    obtain ⟨before, here, rfl, -⟩ := back found
    by_cases own : channel = j
    · rw [if_pos own] at stage ⊢
      subst own
      exact received before here approved stage
    · rw [if_neg own] at stage ⊢
      exact sound.received before (mem_iff_getElem?.mpr ⟨j, here⟩) approved stage
  · intro requester mem stage
    obtain ⟨j, found⟩ := mem_iff_getElem?.mp mem
    obtain ⟨before, here, rfl, -⟩ := back found
    by_cases own : channel = j
    · rw [if_pos own] at stage ⊢
      subst own
      exact concluded before here stage
    · rw [if_neg own] at stage ⊢
      exact sound.concluded before (mem_iff_getElem?.mpr ⟨j, here⟩) stage

theorem State.Sound.goto (sound : state.Sound parseUuid []) {requester : Requester}
    (here : state.requesters[channel]? = some requester) {stage : AwaitStage}
    (received : ∀ approved, stage = .received approved → requester.value = some approved)
    (gone : ∀ outcome, stage = .done outcome → ∀ pending ∈ state.pending, pending.response ≠ channel)
    (concluded : stage = .done (.ok .approved) → requester.value = some true) :
    (state.goto channel stage).Sound parseUuid [] := by
  have only {other : Requester} (found : state.requesters[channel]? = some other) :
      other = requester := Option.some.inj (found.symm.trans here)
  refine sound.requesters (fun _ => rfl) ?_ ?_ ?_ ?_ ?_
  · intro pending mem own other found
    obtain ⟨kept, there, -, empty⟩ := sound.unsent pending mem
    rw [own] at there
    exact Option.some.inj (found.symm.trans there) ▸ empty
  · exact fun pending mem own other found outcome done => gone outcome done pending mem own
  · exact fun other found approved => sound.granted channel other found approved
  · exact fun other found approved stage => only found ▸ received approved stage
  · exact fun other found stage => only found ▸ concluded stage

theorem State.Sound.send (sound : state.Sound parseUuid loose) {approved : Bool}
    (used : ∀ pending, state.Unsent loose pending → pending.response ≠ channel)
    (granted : approved = true → ∀ requester, state.requesters[channel]? = some requester → state.Granted parseUuid ⟨requester.request, channel⟩) :
    (state.send channel approved).Sound parseUuid loose := by
  refine sound.requesters (fun requester => by split <;> rfl) ?_ ?_ ?_ ?_ ?_
  · exact fun pending mem own => absurd own (used pending mem)
  · exact fun pending mem own => absurd own (used pending (.inl mem))
  · intro requester found value
    split at value
    · exact granted (Option.some.inj value) requester found
    · exact sound.granted channel requester found value
  · intro requester found value stage
    have kept := sound.received requester (mem_iff_getElem?.mpr ⟨channel, found⟩)
    cases receiving : requester.stage.receiving with
    | false =>
      simp only [receiving, Bool.false_eq_true, if_false] at stage ⊢
      exact kept value stage
    | true =>
      simp only [receiving, if_true] at stage
      rw [stage] at receiving
      exact absurd receiving Bool.false_ne_true
  · intro requester found stage
    have kept := sound.concluded requester (mem_iff_getElem?.mpr ⟨channel, found⟩)
    cases receiving : requester.stage.receiving with
    | false =>
      simp only [receiving, Bool.false_eq_true, if_false] at stage ⊢
      exact kept stage
    | true =>
      simp only [receiving, if_true] at stage
      rw [stage] at receiving
      exact absurd receiving Bool.false_ne_true

/-- No step takes back an outcome or a value that was sent. -/
def State.Kept (state later : State) : Prop :=
  ∀ (i : Nat) (requester : Requester), state.requesters[i]? = some requester →
    ∃ requester', later.requesters[i]? = some requester' ∧
      requester'.request = requester.request ∧
        (∀ outcome, requester.stage = .done outcome → requester'.stage = .done outcome) ∧
          ∀ value, requester.value = some value → requester'.value = some value

theorem State.Kept.refl (state : State) : state.Kept state :=
  fun _ requester here => ⟨requester, here, rfl, fun _ => id, fun _ => id⟩

theorem State.Kept.trans {first second third : State} (kept : first.Kept second)
    (kept' : second.Kept third) : first.Kept third := by
  intro i requester here
  obtain ⟨requester', here', same, done, value⟩ := kept i requester here
  obtain ⟨requester'', here'', same', done', value'⟩ := kept' i requester' here'
  exact ⟨requester'', here'', same'.trans same, fun outcome was => done' outcome (done outcome was),
    fun sent was => value' sent (value sent was)⟩

theorem kept_goto {requester : Requester} (here : state.requesters[channel]? = some requester)
    (running : ∀ outcome, requester.stage ≠ .done outcome) (stage : AwaitStage) :
    state.Kept (state.goto channel stage) := by
  intro i other found
  refine ⟨_, (getElem?_modify ..).trans (congrArg _ found), ?_⟩
  split
  next own =>
    subst own
    obtain rfl := Option.some.inj (here.symm.trans found)
    exact ⟨rfl, fun outcome done => absurd done (running outcome), fun _ => id⟩
  next => exact ⟨rfl, fun _ => id, fun _ => id⟩

theorem kept_send {state : State} {channel : Nat} (approved : Bool)
    (empty : ∀ requester, state.requesters[channel]? = some requester → requester.value = none) :
    state.Kept (state.send channel approved) := by
  intro i other found
  refine ⟨_, (getElem?_modify ..).trans (congrArg _ found), ?_⟩
  split
  next own =>
    subst own
    refine ⟨?_, fun outcome done => ?_, fun value sent => ?_⟩
    · dsimp only
      split <;> rfl
    · dsimp only
      split <;> exact done
    · exact absurd (sent.symm.trans (empty other found)) (Option.some_ne_none _)
  next => exact ⟨rfl, fun _ => id, fun _ => id⟩

theorem kept_append (state : State) (requester : Requester) (pending : List PendingMcpApproval) :
    state.Kept
      { state with requesters := state.requesters ++ [requester], pending := pending } := by
  intro i other found
  refine ⟨other, ?_, rfl, fun _ => id, fun _ => id⟩
  have inside := (List.getElem?_eq_some_iff.mp found).1
  rw [getElem?_append_left inside]
  exact found

theorem State.Sound.begin {state : State} (sound : state.Sound parseUuid [])
    {request : McpApprovalRequest}
    (fresh : ∀ requester ∈ state.requesters, requester.request.id ≠ request.id)
    {stage : AwaitStage} (waits : ∀ approved, stage ≠ .received approved)
    (undecided : stage ≠ .done (.ok .approved)) :
    ({ state with
        requesters := state.requesters ++
          [{ request := request, stage := stage, value := none }] } : State).Sound
      parseUuid [] := by
  have inside {i : Nat} {requester : Requester} (here : state.requesters[i]? = some requester) :
      (state.requesters ++ [{ request := request, stage := stage, value := none }])[i]? =
        some requester := by
    rw [getElem?_append_left (List.getElem?_eq_some_iff.mp here).1]
    exact here
  have back {i : Nat} {requester : Requester}
      (found : (state.requesters ++ [{ request := request, stage := stage, value := none }])[i]? =
        some requester) : state.requesters[i]? = some requester ∨
          i = state.requesters.length ∧
            requester = { request := request, stage := stage, value := none } := by
    obtain less | more := Nat.lt_or_ge i state.requesters.length
    · rw [getElem?_append_left less] at found
      exact .inl found
    · rw [getElem?_append_right more, getElem?_singleton] at found
      split at found
      next zero => exact .inr ⟨by omega, (Option.some.inj found).symm⟩
      next => exact absurd found.symm (Option.some_ne_none _)
  have mem {i : Nat} {requester : Requester} (here : state.requesters[i]? = some requester) :
      requester ∈ state.requesters := mem_iff_getElem?.mpr ⟨i, here⟩
  refine
    { sound with
      distinct := ?_, unsent := ?_, present := ?_, calls := ?_, granted := ?_
      received := ?_, concluded := ?_ }
  · intro i j requester other found found' named
    obtain here | ⟨last, rfl⟩ := back found
    · obtain here' | ⟨-, rfl⟩ := back found'
      · exact sound.distinct i j requester other here here' named
      · exact absurd named (fresh requester (mem here))
    · obtain here' | ⟨last', -⟩ := back found'
      · exact absurd named.symm (fresh other (mem here'))
      · exact last.trans last'.symm
  · intro pending held
    obtain ⟨requester, here, rest⟩ := sound.unsent pending held
    exact ⟨requester, inside here, rest⟩
  · intro pending held requester found outcome
    obtain ⟨requester', here, -⟩ := sound.unsent pending (.inl held)
    obtain rfl := Option.some.inj (found.symm.trans (inside here))
    exact sound.present pending held requester here outcome
  · intro call held pending taken
    obtain ⟨parsed, requester, here, asked⟩ := sound.calls call held pending taken
    exact ⟨parsed, requester, inside here, asked⟩
  · intro i requester found approved
    obtain here | ⟨-, rfl⟩ := back found
    · exact sound.granted i requester here approved
    · exact absurd approved.symm (Option.some_ne_none _)
  · intro requester held approved received
    obtain old | new := mem_append.mp held
    · exact sound.received requester old approved received
    · rw [mem_singleton.mp new] at received
      exact absurd received (waits approved)
  · intro requester held done
    obtain old | new := mem_append.mp held
    · exact sound.concluded requester old done
    · rw [mem_singleton.mp new] at done
      exact absurd done undecided

theorem requestStep_sound {state later : State} (sound : state.Sound parseUuid [])
    {request : McpApprovalRequest} {now : DateTime}
    (moved : requestStep state request now = some later) :
    later.Sound parseUuid [] ∧ state.Kept later := by
  unfold requestStep at moved
  split at moved
  next => exact absurd moved.symm (Option.some_ne_none _)
  next fresh =>
    have fresh : ∀ requester ∈ state.requesters, requester.request.id ≠ request.id := by
      simpa using fresh
    split at moved
    · obtain rfl := Option.some.inj moved
      exact ⟨sound.begin fresh (fun _ => AwaitStage.noConfusion) (by simp),
        kept_append state _ state.pending⟩
    · split at moved
      next =>
        obtain rfl := Option.some.inj moved
        exact ⟨sound.begin fresh (fun _ => AwaitStage.noConfusion) (by simp),
          kept_append state _ state.pending⟩
      next room =>
        obtain rfl := Option.some.inj moved
        refine ⟨?_, kept_append state _ _⟩
        have begun := @State.Sound.begin parseUuid state sound request fresh .inserted
          (fun _ => AwaitStage.noConfusion) AwaitStage.noConfusion
        have entries : ∀ pending ∈ state.pending, pending.response ≠ state.requesters.length := by
          intro pending mem same
          obtain ⟨requester, here, -⟩ := sound.unsent pending (.inl mem)
          exact absurd (List.getElem?_eq_some_iff.mp here).1 (by omega)
        have others : state.pending.filter (fun pending => pending.request.id ≠ request.id) =
            state.pending := by
          refine filter_eq_self.mpr fun pending mem => ?_
          obtain ⟨requester, here, asked, -⟩ := sound.unsent pending (.inl mem)
          have other := fresh requester (mem_iff_getElem?.mpr ⟨_, here⟩)
          rw [asked] at other
          simpa using other
        have newest (requester : Requester) :
            (state.requesters ++ [requester])[state.requesters.length]? = some requester :=
          getElem?_concat_length
        simp only [State.remove, others]
        refine
          { begun with
            count := ?_, single := ?_, apart := ?_, unsent := ?_, present := ?_ }
        · rw [length_append, length_singleton]
          exact Nat.lt_of_not_le room
        · have single := sound.single
          simp only [map_nil, append_nil, map_append, map_cons] at single ⊢
          refine nodup_append.mpr ⟨single, nodup_singleton _, ?_⟩
          intro channel mem channel' mem' same
          obtain ⟨pending, held, rfl⟩ := mem_map.mp mem
          exact entries pending held (same.trans (mem_singleton.mp mem'))
        · rintro pending (mem | mem) call held taken stage
          · obtain old | new := mem_append.mp mem
            · exact sound.apart pending (.inl old) call held taken stage
            · rw [mem_singleton.mp new]
              obtain ⟨-, requester, here, -⟩ := sound.calls call held taken stage
              exact Nat.ne_of_lt (List.getElem?_eq_some_iff.mp here).1
          · exact absurd mem not_mem_nil
        · rintro pending (mem | mem | held)
          · obtain old | new := mem_append.mp mem
            · exact begun.unsent pending (.inl old)
            · rw [mem_singleton.mp new]
              exact ⟨_, newest _, rfl, rfl⟩
          · exact absurd mem not_mem_nil
          · exact begun.unsent pending (.inr (.inr held))
        · intro pending mem requester found outcome
          obtain old | new := mem_append.mp mem
          · exact begun.present pending old requester found outcome
          · rw [mem_singleton.mp new] at found
            obtain rfl := Option.some.inj ((newest _).symm.trans found)
            exact AwaitStage.noConfusion

theorem awaitStep_sound {state later : State} (sound : state.Sound parseUuid [])
    {requester : Requester} (here : state.requesters[channel]? = some requester) {event : Event}
    (moved : awaitStep timeout state requester channel requester.stage event = some later) :
    later.Sound parseUuid [] ∧ state.Kept later := by
  have mem : requester ∈ state.requesters := mem_iff_getElem?.mpr ⟨channel, here⟩
  -- only the last two steps end the call or take a value
  have onward {stage : AwaitStage} (running : ∀ outcome, requester.stage ≠ .done outcome)
      (waits : ∀ approved, stage ≠ .received approved) (goes : ∀ outcome, stage ≠ .done outcome) :
      (state.goto channel stage).Sound parseUuid [] ∧ state.Kept (state.goto channel stage) :=
    ⟨sound.goto here (fun approved same => absurd same (waits approved))
      (fun outcome same => absurd same (goes outcome)) (fun same => absurd same (goes _)),
      kept_goto here running stage⟩
  unfold awaitStep at moved
  split at moved
  next stage =>
    obtain rfl := Option.some.inj moved
    exact onward (by simp [stage]) (by simp) (by simp)
  next stage =>
    obtain rfl := Option.some.inj moved
    exact onward (by simp [stage]) (by simp) (by simp)
  next stage =>
    split at moved
    all_goals
      obtain rfl := Option.some.inj moved
      exact onward (by simp [stage]) (by simp) (by simp)
  next stage =>
    obtain ⟨approved, value, rfl⟩ := Option.map_eq_some_iff.mp moved
    refine ⟨sound.goto here (fun other same => ?_) (fun _ => AwaitStage.noConfusion)
      AwaitStage.noConfusion, kept_goto here (by simp [stage]) _⟩
    obtain rfl := AwaitStage.received.inj same
    exact value
  next stage =>
    obtain rfl := Option.some.inj moved
    exact onward (by simp [stage]) (by simp) (by simp)
  next approved _ _ stage =>
    obtain rfl := Option.some.inj moved
    have value := sound.received requester mem approved stage
    refine ⟨sound.goto here (fun _ => AwaitStage.noConfusion) (fun _ _ pending held own => ?_)
      (fun same => ?_), kept_goto here (by simp [stage]) _⟩
    · obtain ⟨other, there, -, empty⟩ := sound.unsent pending (.inl held)
      rw [own] at there
      obtain rfl := Option.some.inj (here.symm.trans there)
      exact absurd (value.symm.trans empty) (Option.some_ne_none _)
    · have outcome := Except.ok.inj (AwaitStage.done.inj same)
      cases approved with
      | true => exact value
      | false =>
        rw [if_neg Bool.false_ne_true] at outcome
        exact absurd outcome (by decide)
  next unshown _ _ stage =>
    obtain rfl := Option.some.inj moved
    have removed : (state.remove requester.request.id).Sound parseUuid [] :=
      sound.fewer filter_sublist (List.Sublist.refl [])
    refine ⟨removed.goto here (fun _ => AwaitStage.noConfusion) (fun _ _ pending held own => ?_)
      (fun same => ?_), kept_goto here (by simp [stage]) _⟩
    · obtain ⟨kept, other⟩ := mem_filter.mp held
      obtain ⟨asker, there, asked, -⟩ := sound.unsent pending (.inl kept)
      rw [own] at there
      obtain rfl := Option.some.inj (here.symm.trans there)
      simp [asked] at other
    · have outcome := AwaitStage.done.inj same
      cases unshown with
      | none => exact absurd (Except.ok.inj outcome) (by decide)
      | some error => exact absurd outcome (by simp)
  next => exact absurd moved.symm (Option.some_ne_none _)

theorem State.Granted.mono {state later : State} (granted : state.Granted parseUuid pending)
    (kept : ∀ call ∈ state.responses, ∀ now result, call.stage = .sent pending now result → call ∈ later.responses) :
    later.Granted parseUuid pending := by
  obtain ⟨call, mem, approved, parsed, now, result, stage, early⟩ := granted
  exact ⟨call, kept call mem now result stage, approved, parsed, now, result, stage, early⟩

theorem State.Sound.responded (sound : state.Sound parseUuid loose) {call : ResponseCall}
    (taken : ∀ pending, call.stage.pending? = some pending → pending ∈ loose)
    (named : ∀ pending ∈ loose, parseUuid call.approvalId = some pending.request.id) :
    ({ state with responses := state.responses ++ [call] } : State).Sound parseUuid [] := by
  have back {m : Nat} {other : ResponseCall}
      (found : (state.responses ++ [call])[m]? = some other) :
      state.responses[m]? = some other ∨ m = state.responses.length ∧ other = call := by
    obtain less | more := Nat.lt_or_ge m state.responses.length
    · rw [getElem?_append_left less] at found
      exact .inl found
    · rw [getElem?_append_right more, getElem?_singleton] at found
      split at found
      next zero => exact .inr ⟨by omega, (Option.some.inj found).symm⟩
      next => exact absurd found.symm (Option.some_ne_none _)
  have fewer := sound.fewer (List.Sublist.refl _) (nil_sublist loose)
  have nodup := nodup_append.mp sound.single
  refine
    { fewer with
      once := ?_, apart := ?_, unsent := ?_, calls := ?_, granted := ?_ }
  · intro m n first second pending pending' found found' held held' same
    obtain here | ⟨last, rfl⟩ := back found
    · obtain here' | ⟨-, rfl⟩ := back found'
      · exact sound.once m n first second pending pending' here here' held held' same
      · exact absurd same (sound.apart pending' (.inr (taken pending' held')) first
          (mem_iff_getElem?.mpr ⟨m, here⟩) pending held)
    · obtain here' | ⟨last', -⟩ := back found'
      · exact absurd same.symm (sound.apart pending (.inr (taken pending held)) second
          (mem_iff_getElem?.mpr ⟨n, here'⟩) pending' held')
      · exact last.trans last'.symm
  · rintro pending (mem | mem) other held took stage
    · obtain old | new := mem_append.mp held
      · exact sound.apart pending (.inl mem) other old took stage
      · rw [mem_singleton.mp new] at stage
        intro same
        exact nodup.2.2 _ (mem_map_of_mem mem) _ (mem_map_of_mem (taken took stage))
          same.symm
    · exact absurd mem not_mem_nil
  · rintro pending (mem | mem | ⟨other, held, stage⟩)
    · exact sound.unsent pending (.inl mem)
    · exact absurd mem not_mem_nil
    · obtain old | new := mem_append.mp held
      · exact sound.unsent pending (.inr (.inr ⟨other, old, stage⟩))
      · rw [mem_singleton.mp new] at stage
        exact sound.unsent pending (.inr (.inl (taken pending (by rw [stage]; rfl))))
  · intro other held pending stage
    obtain old | new := mem_append.mp held
    · exact sound.calls other old pending stage
    · rw [mem_singleton.mp new] at stage ⊢
      obtain ⟨requester, here, asked, -⟩ := sound.unsent pending (.inr (.inl (taken pending stage)))
      exact ⟨named pending (taken pending stage), requester, here, asked⟩
  · intro i requester found approved
    exact (sound.granted i requester found approved).mono fun _ mem _ _ _ =>
      mem_append_left _ mem

theorem State.Sound.answering (sound : state.Sound parseUuid []) {n : Nat} {call : ResponseCall}
    (here : state.responses[n]? = some call) (stage : call.stage = .taken pending) (now : DateTime)
    (result : Except String Unit) :
    (state.returned n (.sent pending now result)).Sound parseUuid [] ∧
      ∀ entry, (state.returned n (.sent pending now result)).Unsent [] entry →
        entry.response ≠ pending.response := by
  have back {m : Nat} {other : ResponseCall}
      (found : (state.returned n (.sent pending now result)).responses[m]? = some other) :
      ∃ before, state.responses[m]? = some before ∧ other.approvalId = before.approvalId ∧
        other.stage.pending? = before.stage.pending? ∧
          ∀ entry, other.stage = .taken entry → m ≠ n ∧ before.stage = .taken entry := by
    obtain ⟨before, there, rfl⟩ := getElem?_modify_some found
    refine ⟨before, there, ?_, ?_, fun entry took => ?_⟩
    · split <;> rfl
    · split
      next own =>
        subst own
        obtain rfl := Option.some.inj (here.symm.trans there)
        rw [stage]
        rfl
      next => rfl
    · by_cases own : n = m
      · rw [if_pos own] at took
        exact absurd took RespondStage.noConfusion
      · rw [if_neg own] at took
        exact ⟨fun same => own same.symm, took⟩
  have old {other : ResponseCall}
      (mem : other ∈ (state.returned n (.sent pending now result)).responses) :
      ∃ before ∈ state.responses, other.approvalId = before.approvalId ∧
        other.stage.pending? = before.stage.pending? := by
    obtain ⟨m, found⟩ := mem_iff_getElem?.mp mem
    obtain ⟨before, there, same, took, -⟩ := back found
    exact ⟨before, mem_iff_getElem?.mpr ⟨m, there⟩, same, took⟩
  have mem := mem_iff_getElem?.mpr ⟨n, here⟩
  have held : call.stage.pending? = some pending := by
    rw [stage]
    rfl
  constructor
  · refine
      { sound with
        once := ?_, apart := ?_, unsent := ?_, calls := ?_, granted := ?_ }
    · intro i j first second entry entry' found found' took took' same
      obtain ⟨before, there, -, kept, -⟩ := back found
      obtain ⟨before', there', -, kept', -⟩ := back found'
      exact sound.once i j before before' entry entry' there there' (kept.symm.trans took)
        (kept'.symm.trans took') same
    · intro entry waits other held entry' took
      obtain ⟨before, there, -, kept⟩ := old held
      exact sound.apart entry waits before there entry' (kept.symm.trans took)
    · rintro entry (waits | none | ⟨other, held, took⟩)
      · exact sound.unsent entry (.inl waits)
      · exact absurd none not_mem_nil
      · obtain ⟨m, found⟩ := mem_iff_getElem?.mp held
        obtain ⟨before, there, -, -, kept⟩ := back found
        exact sound.unsent entry
          (.inr (.inr ⟨before, mem_iff_getElem?.mpr ⟨m, there⟩, (kept entry took).2⟩))
    · intro other held entry took
      obtain ⟨before, there, same, kept⟩ := old held
      rw [same]
      exact sound.calls before there entry (kept.symm.trans took)
    · intro i requester found approved
      refine (sound.granted i requester found approved).mono fun other held now' result' sent => ?_
      obtain ⟨m, there⟩ := mem_iff_getElem?.mp held
      have other' : n ≠ m := by
        intro same
        subst same
        obtain rfl := Option.some.inj (here.symm.trans there)
        exact absurd (stage.symm.trans sent) RespondStage.noConfusion
      refine mem_iff_getElem?.mpr ⟨m, (getElem?_modify ..).trans ?_⟩
      rw [there]
      exact congrArg some (if_neg other')
  · rintro entry (waits | none | ⟨other, took, sent⟩)
    · exact (sound.apart entry (.inl waits) call mem pending held).symm
    · exact absurd none not_mem_nil
    · obtain ⟨m, found⟩ := mem_iff_getElem?.mp took
      obtain ⟨before, there, -, -, kept⟩ := back found
      obtain ⟨apart, before'⟩ := kept entry sent
      intro same
      exact apart (sound.once m n before call entry pending there here
        (by rw [before']; rfl) held same)

theorem respondStep_sound (sound : state.Sound parseUuid []) (approvalId : String) (approved : Bool) :
    (respondStep parseUuid state approvalId approved).Sound parseUuid [] ∧
      state.Kept (respondStep parseUuid state approvalId approved) := by
  unfold respondStep
  split
  next =>
    exact ⟨sound.responded (fun _ absent => absurd absent.symm (Option.some_ne_none _))
      (fun _ none => absurd none not_mem_nil),
      State.Kept.refl state⟩
  next id parsed =>
    split
    next =>
      exact ⟨sound.responded (fun _ absent => absurd absent.symm (Option.some_ne_none _))
        (fun _ none => absurd none not_mem_nil), State.Kept.refl state⟩
    next pending found =>
      refine ⟨(sound.remove found).responded (fun entry same => ?_) (fun entry mem => ?_),
        State.Kept.refl state⟩
      · exact mem_singleton.mpr (Option.some.inj same).symm
      · rw [mem_singleton.mp mem, (find_pending found).2]
        exact parsed

theorem answerStep_sound {state later : State} (sound : state.Sound parseUuid []) {call : Nat}
    {now : DateTime} (moved : answerStep state call now = some later) :
    later.Sound parseUuid [] ∧ state.Kept later := by
  unfold answerStep at moved
  split at moved
  next approvalId approved pending here =>
    obtain rfl := Option.some.inj moved
    have mem := mem_iff_getElem?.mpr ⟨call, here⟩
    obtain ⟨parsed, -⟩ := sound.calls _ mem pending rfl
    obtain ⟨requester, there, asked, empty⟩ := sound.unsent pending (.inr (.inr ⟨_, mem, rfl⟩))
    generalize (if state.open? pending.response then Except.ok ()
      else Except.error "MCP approval requester is no longer waiting") = result
    obtain ⟨answering, used⟩ := sound.answering here rfl now result
    refine ⟨answering.send used fun granted other found => ?_, kept_send _ fun other found => ?_⟩
    · obtain rfl := Option.some.inj (there.symm.trans found)
      simp only [Bool.and_eq_true, decide_eq_true_eq] at granted
      have same : (⟨requester.request, pending.response⟩ : PendingMcpApproval) = pending := by
        rw [asked]
      rw [same]
      refine ⟨{ approvalId := approvalId, approved := approved, stage := .sent pending now result },
        mem_iff_getElem?.mpr ⟨call, (getElem?_modify ..).trans ?_⟩, granted.1, parsed,
        now, result, rfl, granted.2⟩
      rw [here]
      exact congrArg some (if_pos rfl)
    · obtain rfl := Option.some.inj (there.symm.trans found)
      exact empty
  next => exact absurd moved.symm (Option.some_ne_none _)

theorem cleanup_sound (ids : List String) (sound : state.Sound parseUuid []) :
    (state.cleanup ids).Sound parseUuid [] ∧ state.Kept (state.cleanup ids) := by
  induction ids generalizing state with
  | nil => exact ⟨sound, State.Kept.refl state⟩
  | cons id ids ih =>
    unfold State.cleanup
    split
    next pending found =>
      have removed := sound.remove found
      obtain ⟨requester, here, -, empty⟩ :=
        removed.unsent pending (.inr (.inl (mem_singleton_self _)))
      have nodup := nodup_append.mp removed.single
      have sent : ((state.remove id).send pending.response false).Sound parseUuid [] := by
        refine (removed.fewer (List.Sublist.refl _) (nil_sublist _)).send ?_
          (fun absent => absurd absent Bool.false_ne_true)
        rintro entry (waits | none | ⟨call, mem, stage⟩)
        · exact nodup.2.2 _ (mem_map_of_mem waits) _ (mem_singleton_self _)
        · exact absurd none not_mem_nil
        · exact removed.apart pending (.inr (mem_singleton_self _)) call mem entry
            (by rw [stage]; rfl)
      have unsent : state.Kept ((state.remove id).send pending.response false) := by
        refine @kept_send (state.remove id) _ false fun other found => ?_
        obtain rfl := Option.some.inj (here.symm.trans found)
        exact empty
      obtain ⟨after, kept⟩ := ih sent
      exact ⟨after, unsent.trans kept⟩
    next => exact ih sound

theorem step_sound {state later : State} (sound : state.Sound parseUuid []) {event : Event}
    (moved : step parseUuid timeout state event = some later) :
    later.Sound parseUuid [] ∧ state.Kept later := by
  have awaiting {channel : Nat} {event : Event}
      (moved : step.awaiting timeout state channel event = some later) :
      later.Sound parseUuid [] ∧ state.Kept later := by
    obtain ⟨requester, here, moved⟩ := Option.bind_eq_some_iff.mp moved
    exact awaitStep_sound sound here moved
  cases event with
  | request request now => exact requestStep_sound sound moved
  | respond approvalId approved =>
    obtain rfl := Option.some.inj moved
    exact respondStep_sound sound approvalId approved
  | answer call now => exact answerStep_sound sound moved
  | delete sessionId =>
    obtain rfl := Option.some.inj moved
    exact cleanup_sound _ sound
  | emit channel result => exact awaiting moved
  | measure channel now => exact awaiting moved
  | receive channel => exact awaiting moved
  | elapse channel => exact awaiting moved
  | conclude channel now => exact awaiting moved
  | leave channel => exact awaiting moved

/-- The state after some steps, where each of them can be made. -/
def run (parseUuid : String → Option String) (timeout : Nat) (state : State)
    (events : List Event) : Option State :=
  events.foldlM (step parseUuid timeout) state

theorem run_sound (events : List Event) {state later : State} (sound : state.Sound parseUuid [])
    (ran : run parseUuid timeout state events = some later) :
    later.Sound parseUuid [] ∧ state.Kept later := by
  induction events generalizing state with
  | nil =>
    obtain rfl := Option.some.inj ran
    exact ⟨sound, State.Kept.refl state⟩
  | cons event events ih =>
    obtain ⟨next, moved, rest⟩ := Option.bind_eq_some_iff.mp ran
    obtain ⟨sound', kept⟩ := step_sound sound moved
    obtain ⟨after, kept'⟩ := ih sound' rest
    exact ⟨after, kept.trans kept'⟩

end Invariant

/-- In every run, no more approvals are pending than may be; an approved request was granted by a
response to its id that read the clock before the request expired; what was sent or decided stays;
each request is taken by one response at most; and one that is decided has no entry. -/
theorem approvals_decided_once (parseUuid : String → Option String) (timeout : Nat)
    (events : List Event) (state : State)
    (ran : run parseUuid timeout State.empty events = some state) :
    state.pending.length ≤ maxPendingMcpApprovals ∧
      (∀ (channel : Nat) (requester : Requester), state.requesters[channel]? = some requester →
        (requester.stage = .done (.ok .approved) →
          ∃ call ∈ state.responses, call.approved = true ∧
            parseUuid call.approvalId = some requester.request.id ∧
              ∃ now result, call.stage = .sent ⟨requester.request, channel⟩ now result ∧
                now < requester.request.expiresAt) ∧
          ∀ (later : List Event) (state' : State), run parseUuid timeout state later = some state' →
            ∃ requester', state'.requesters[channel]? = some requester' ∧
              requester'.request = requester.request ∧
              (∀ value, requester.value = some value → requester'.value = some value) ∧
              ∀ outcome, requester.stage = .done outcome → requester'.stage = .done outcome ∧
                ∀ pending ∈ state'.pending, pending.request.id ≠ requester.request.id) ∧
      ∀ (m n : Nat) (call other : ResponseCall) (pending pending' : PendingMcpApproval),
        state.responses[m]? = some call → state.responses[n]? = some other →
          call.stage.pending? = some pending → other.stage.pending? = some pending' →
            pending.request.id = pending'.request.id → m = n := by
  have sound := (run_sound events empty_sound ran).1
  refine ⟨sound.count, fun channel requester here => ⟨fun approved => ?_, ?_⟩, ?_⟩
  · exact sound.granted channel requester here
      (sound.concluded requester (mem_iff_getElem?.mpr ⟨channel, here⟩) approved)
  · intro later state' ran'
    obtain ⟨sound', kept⟩ := run_sound later sound ran'
    obtain ⟨requester', here', same, done, value⟩ := kept channel requester here
    refine ⟨requester', here', same, value, fun outcome stage => ⟨done outcome stage, ?_⟩⟩
    intro pending mem named
    obtain ⟨asker, there, asked, -⟩ := sound'.unsent pending (.inl mem)
    have own := sound'.distinct pending.response channel asker requester' there here'
      (by rw [asked, named, same])
    rw [own] at there
    obtain rfl := Option.some.inj (here'.symm.trans there)
    exact sound'.present pending mem requester' (own ▸ here') outcome (done outcome stage)
  · intro m n call other pending pending' here here' held held' named
    obtain ⟨-, requester, there, asked⟩ :=
      sound.calls call (mem_iff_getElem?.mpr ⟨m, here⟩) pending held
    obtain ⟨-, requester', there', asked'⟩ :=
      sound.calls other (mem_iff_getElem?.mpr ⟨n, here'⟩) pending' held'
    have same := sound.distinct _ _ requester requester' there there' (by rw [asked, asked', named])
    exact sound.once m n call other pending pending' here here' held held' same

def sampleRequest : McpApprovalRequest :=
  { id := "a", clientId := "client", action := "send_command", sessionId := "session",
    scope := "write", target := none, createdAt := 0, expiresAt := 60 }

/-- A request that is shown, answered in time and approved. -/
def sampleEvents : List Event :=
  [.request sampleRequest 0, .emit 0 (.ok ()), .measure 0 1, .respond "a" true, .answer 0 5,
    .receive 0, .conclude 0 6]

theorem sample_request_approved :
    ∃ state, run some 60 State.empty sampleEvents = some state ∧
      ∃ call ∈ state.responses, call.approved = true ∧ some call.approvalId = some "a" ∧
        ∃ now result, call.stage = .sent ⟨sampleRequest, 0⟩ now result ∧ now < 60 := by
  refine ⟨_, rfl, ?_⟩
  exact ((approvals_decided_once some 60 sampleEvents _ rfl).2.1 0 _ rfl).1 rfl

end PortMate.ApprovalBroker
