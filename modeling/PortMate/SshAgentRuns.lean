import PortMate.KeyedLists
import PortMate.SshAgentAnswers

namespace PortMate

open List

namespace AgentSignal

def filteredKeys? : AgentSignal → Option (List (List UInt8))
  | filtered _ _ _ keys => some keys
  | _ => none

end AgentSignal

open AgentSignal

/-- The keys that the last filtered answer left; none before the first. -/
def lastKeys (trace : List AgentSignal) : List (List UInt8) :=
  ((trace.filterMap filteredKeys?).getLast?).getD []

theorem lastKeys_concat (trace : List AgentSignal) (signal : AgentSignal) :
    lastKeys (trace ++ [signal]) = (signal.filteredKeys?).getD (lastKeys trace) := by
  unfold lastKeys
  rw [filterMap_append]
  cases found : signal.filteredKeys? with
  | none => rw [filterMap_cons_none found, filterMap_nil, append_nil]; rfl
  | some keys =>
    rw [filterMap_cons_some found, filterMap_nil, getLast?_concat]
    rfl

section Runs

variable (fingerprint : List UInt8 → Option String) (identityRefs : List IdentityRef)

/-- What a frame for the client answers: nothing that reached the upstream, a request for the identities,
or a sign request. -/
def ResponseOk (trace : List AgentSignal) (connection : Nat) (response : List UInt8) : Prop :=
  response = [sshAgentFailure] ∨
    (∃ answer keys, .filtered connection answer response keys ∈ trace) ∨
    ∃ request, .toUpstream connection request ∈ trace ∧ request.head? = some sshAgentSignRequest

def AgentSignal.RightAfter (before : List AgentSignal) : AgentSignal → Prop
  | .checked _ request =>
    ∃ key, signRequestKeyBlob request = some key ∧ key ∈ lastKeys before
  | .toUpstream connection request =>
    request.head? = some sshAgentRequestIdentities ∨
      (request.head? = some sshAgentSignRequest ∧ .checked connection request ∈ before)
  | .filtered _ answer response keys =>
    if answer.head? = some sshAgentIdentitiesAnswer then
      ∃ identities, Writable identities ∧ answer = identitiesAnswer identities ∧
        response = identitiesAnswer (identities.filter (admits fingerprint identityRefs)) ∧
        keys = (identities.filter (admits fingerprint identityRefs)).map (·.1)
    else response = answer ∧ keys = []
  | .toClient connection response => ResponseOk before connection response

/-- What a task holds follows from what has happened on its connection. -/
def ConnectionOk (trace : List AgentSignal) (connection : Nat) : AgentConnection → Prop
  | .reading => True
  | .forwarding request =>
    request.head? = some sshAgentRequestIdentities ∨
      (request.head? = some sshAgentSignRequest ∧ .checked connection request ∈ trace)
  | .awaiting request =>
    request.head? = some sshAgentRequestIdentities ∨
      (request.head? = some sshAgentSignRequest ∧ .toUpstream connection request ∈ trace)
  | .answering response => ResponseOk trace connection response

structure ProxyInvariant (proxy : FilteredAgentProxy) (trace : List AgentSignal) : Prop where
  keys : proxy.allowedKeyBlobs = lastKeys trace
  connections : ∀ connection state, proxy.connections.lookup connection = some state →
    ConnectionOk trace connection state
  history : EachAfter (AgentSignal.RightAfter fingerprint identityRefs) trace

variable {fingerprint identityRefs} {proxy : FilteredAgentProxy} {trace : List AgentSignal}

theorem ResponseOk.concat {connection : Nat} {response : List UInt8}
    (ok : ResponseOk trace connection response) (signal : AgentSignal) :
    ResponseOk (trace ++ [signal]) connection response := by
  rcases ok with failure | ⟨answer, keys, member⟩ | ⟨request, member, kind⟩
  · exact .inl failure
  · exact .inr (.inl ⟨answer, keys, mem_append_left _ member⟩)
  · exact .inr (.inr ⟨request, mem_append_left _ member, kind⟩)

theorem ConnectionOk.concat {connection : Nat} {state : AgentConnection}
    (ok : ConnectionOk trace connection state) (signal : AgentSignal) :
    ConnectionOk (trace ++ [signal]) connection state := by
  cases state with
  | reading => trivial
  | forwarding request => exact ok.imp_right (And.imp_right (mem_append_left _))
  | awaiting request => exact ok.imp_right (And.imp_right (mem_append_left _))
  | answering response => exact ResponseOk.concat ok signal

namespace ProxyInvariant

section Changes

variable (inv : ProxyInvariant fingerprint identityRefs proxy trace)

include inv

theorem setConnection {connection : Nat} {state : AgentConnection}
    (ok : ConnectionOk trace connection state) :
    ProxyInvariant fingerprint identityRefs (proxy.setConnection connection state) trace where
  keys := inv.keys
  connections other found known := by
    unfold FilteredAgentProxy.setConnection at known
    rw [lookup_cons, lookup_filter_ne] at known
    by_cases same : other = connection
    · subst same
      rw [BEq.rfl] at known
      obtain rfl := Option.some.inj known
      exact ok
    · rw [beq_false_of_ne same, if_neg same] at known
      exact inv.connections other found known
  history := inv.history

theorem closeConnection (connection : Nat) :
    ProxyInvariant fingerprint identityRefs (proxy.closeConnection connection) trace where
  keys := inv.keys
  connections other found known := by
    unfold FilteredAgentProxy.closeConnection at known
    rw [lookup_filter_ne] at known
    split at known
    · exact absurd known (by simp)
    · exact inv.connections other found known
  history := inv.history

theorem emit {signal : AgentSignal} (right : signal.RightAfter fingerprint identityRefs trace) :
    ProxyInvariant fingerprint identityRefs
      { proxy with allowedKeyBlobs := (signal.filteredKeys?).getD proxy.allowedKeyBlobs }
      (trace ++ [signal]) where
  keys := by rw [lastKeys_concat, inv.keys]
  connections other found known := (inv.connections other found known).concat signal
  history := inv.history.concat right

theorem accept (connection : Nat) :
    ProxyInvariant fingerprint identityRefs (proxy.accept connection) trace := by
  unfold FilteredAgentProxy.accept
  split
  · exact inv
  · refine ⟨inv.keys, ?_, inv.history⟩
    intro other found known
    rw [lookup_cons] at known
    split at known
    · obtain rfl := Option.some.inj known
      trivial
    · exact inv.connections other found known

end Changes

end ProxyInvariant

namespace FilteredAgentProxy

section Steps

variable (inv : ProxyInvariant fingerprint identityRefs proxy trace)

include inv

theorem handleRequest_keeps (connection : Nat) (request : List UInt8) :
    ProxyInvariant fingerprint identityRefs (proxy.handleRequest connection request).1
      (trace ++ (proxy.handleRequest connection request).2) := by
  unfold handleRequest
  split
  next kind =>
    have ok : ConnectionOk trace connection (.forwarding request) := .inl kind
    simpa using inv.setConnection ok
  next =>
    split
    next allowed =>
      simp only [Bool.and_eq_true, decide_eq_true_eq, Option.any_eq_true] at allowed
      obtain ⟨kind, key, read, member⟩ := allowed
      rw [inv.keys] at member
      have right : (AgentSignal.checked connection request).RightAfter fingerprint identityRefs
          trace := ⟨key, read, by simpa using member⟩
      have checked := inv.emit right
      refine checked.setConnection (.inr ⟨kind, ?_⟩)
      exact mem_append_right _ mem_cons_self
    next =>
      have ok : ConnectionOk trace connection (.answering [sshAgentFailure]) := .inl rfl
      simpa using inv.setConnection ok

theorem handleAnswer_keeps {connection : Nat} {request : List UInt8} (answer : List UInt8)
    (asked : ConnectionOk trace connection (.awaiting request)) :
    ProxyInvariant fingerprint identityRefs
      (proxy.handleAnswer fingerprint identityRefs connection request answer).1
      (trace ++ (proxy.handleAnswer fingerprint identityRefs connection request answer).2) := by
  unfold handleAnswer
  split
  next =>
    split
    next => simpa using inv.closeConnection connection
    next response selected passes =>
      have right : (filtered connection answer response selected).RightAfter fingerprint
          identityRefs trace := by
        unfold AgentSignal.RightAfter
        dsimp only
        split
        next kind => exact filterIdentityResponse_ok kind passes
        next kind =>
          unfold filterIdentityResponse at passes
          split at passes
          next =>
            obtain ⟨rfl, rfl⟩ := Prod.mk.inj (Except.ok.inj passes)
            exact ⟨rfl, rfl⟩
          next first rest =>
            rw [if_pos fun same => kind (by rw [head?_cons, same])] at passes
            obtain ⟨rfl, rfl⟩ := Prod.mk.inj (Except.ok.inj passes)
            exact ⟨rfl, rfl⟩
      refine (inv.emit right).setConnection (.inr (.inl ⟨answer, selected, ?_⟩))
      exact mem_append_right _ mem_cons_self
  next other =>
    rcases asked with identities | ⟨kind, sent⟩
    · exact absurd identities other
    · have ok : ConnectionOk trace connection (.answering answer) := .inr (.inr ⟨request, sent, kind⟩)
      simpa using inv.setConnection ok

theorem step_keeps (event : AgentEvent) :
    ProxyInvariant fingerprint identityRefs (proxy.step fingerprint identityRefs event).1
      (trace ++ (proxy.step fingerprint identityRefs event).2) := by
  cases event with
  | accept connection => simpa [step] using inv.accept connection
  | failed connection => simpa [step] using inv.closeConnection connection
  | request connection stream =>
    unfold step
    dsimp only
    split
    · split
      next => simpa using inv.closeConnection connection
      next request _ => exact handleRequest_keeps inv connection request
    · simpa using inv
  | forwarded connection =>
    unfold step
    dsimp only
    split
    next request known =>
      have asked := inv.connections connection _ known
      have right : (toUpstream connection request).RightAfter fingerprint identityRefs
          trace := asked
      refine (inv.emit right).setConnection (asked.imp_right fun sign => ⟨sign.1, ?_⟩)
      exact mem_append_right _ mem_cons_self
    next => simpa using inv
  | upstreamAnswer connection stream =>
    unfold step
    dsimp only
    split
    next request known =>
      split
      next => simpa using inv.closeConnection connection
      next answer _ => exact handleAnswer_keeps inv answer (inv.connections connection _ known)
    next => simpa using inv
  | answered connection =>
    unfold step
    dsimp only
    split
    next response known =>
      have right : (toClient connection response).RightAfter fingerprint identityRefs
          trace := inv.connections connection _ known
      have ok : ConnectionOk (trace ++ [.toClient connection response]) connection .reading := trivial
      exact (inv.emit right).setConnection ok
    next => simpa using inv

end Steps

theorem malformed_answer_refused {connection : Nat} {request stream answer : List UInt8}
    (waits : proxy.connections.lookup connection = some (.awaiting request))
    (asked : request.head? = some sshAgentRequestIdentities)
    (read : readAgentFrame stream = .ok answer)
    (kind : answer.head? = some sshAgentIdentitiesAnswer)
    (malformed : ∀ identities, Writable identities → answer ≠ identitiesAnswer identities) :
    proxy.step fingerprint identityRefs (.upstreamAnswer connection stream) =
      (proxy.closeConnection connection, []) := by
  have fails : ∃ error, filterIdentityResponse fingerprint answer identityRefs = .error error := by
    cases passes : filterIdentityResponse fingerprint answer identityRefs with
    | error error => exact ⟨error, rfl⟩
    | ok passed =>
      obtain ⟨identities, writable, same, -⟩ := filterIdentityResponse_ok kind passes
      exact absurd same (malformed identities writable)
  obtain ⟨error, fails⟩ := fails
  unfold step handleAnswer
  simp only [waits, read, asked, fails, if_true]

theorem wellFormed_answer_listed {connection : Nat} {request stream : List UInt8}
    {identities : List AgentIdentity}
    (waits : proxy.connections.lookup connection = some (.awaiting request))
    (asked : request.head? = some sshAgentRequestIdentities)
    (read : readAgentFrame stream = .ok (identitiesAnswer identities))
    (writable : Writable identities) :
    let listed := identities.filter (admits fingerprint identityRefs)
    proxy.step fingerprint identityRefs (.upstreamAnswer connection stream) =
      ({ proxy with allowedKeyBlobs := listed.map Prod.fst }.setConnection connection
          (.answering (identitiesAnswer listed)),
        [.filtered connection (identitiesAnswer identities) (identitiesAnswer listed)
          (listed.map Prod.fst)]) := by
  unfold step handleAnswer
  simp only [waits, read, asked, filterIdentityResponse_answer writable, if_true]

theorem pinned_reference_matches {identityRef : IdentityRef} {expected : String}
    (pinned : pinnedFingerprint identityRef = some expected) {key comment : List UInt8}
    (hit : identityRefMatches fingerprint key comment identityRef = true) :
    fingerprint key = some expected := by
  unfold identityRefMatches at hit
  rw [pinned] at hit
  exact of_decide_eq_true hit

end FilteredAgentProxy

end Runs

open FilteredAgentProxy

/-- The agent filter, for every run: what reaches the upstream was let through, a sign request by the
keys of the last filtered answer when it was checked; a filtered answer lists the identities that a
reference to a key of the agent matches; a malformed one is refused, and a well-formed one answered. -/
theorem agent_filter_kept (fingerprint : List UInt8 → Option String)
    (identityRefs : List IdentityRef) (events : List AgentEvent) :
    let run := (filteredAgentProxy fingerprint identityRefs).run .initial events
    let agentRefs := identityRefs.filter fun identityRef => identityRef.source = .agent
    EachAfter (AgentSignal.RightAfter fingerprint agentRefs) run.2 ∧
      (∀ identity, admits fingerprint agentRefs identity = true ↔
        ∃ identityRef ∈ identityRefs, identityRef.source = .agent ∧
          identityRefMatches fingerprint identity.1 identity.2 identityRef = true) ∧
      (∀ identityRef expected, pinnedFingerprint identityRef = some expected → ∀ key comment,
        identityRefMatches fingerprint key comment identityRef = true →
          fingerprint key = some expected) ∧
      (∀ connection request stream answer,
        run.1.connections.lookup connection = some (.awaiting request) →
        request.head? = some sshAgentRequestIdentities → readAgentFrame stream = .ok answer →
        answer.head? = some sshAgentIdentitiesAnswer →
        (∀ identities, Writable identities → answer ≠ identitiesAnswer identities) →
        (filteredAgentProxy fingerprint identityRefs).step run.1 (.upstreamAnswer connection stream) =
          (run.1.closeConnection connection, [])) ∧
      ∀ connection request stream identities,
        run.1.connections.lookup connection = some (.awaiting request) →
        request.head? = some sshAgentRequestIdentities →
        readAgentFrame stream = .ok (identitiesAnswer identities) → Writable identities →
        let listed := identities.filter (admits fingerprint agentRefs)
        (filteredAgentProxy fingerprint identityRefs).step run.1 (.upstreamAnswer connection stream) =
          ({ run.1 with allowedKeyBlobs := listed.map Prod.fst }.setConnection connection
              (.answering (identitiesAnswer listed)),
            [.filtered connection (identitiesAnswer identities) (identitiesAnswer listed)
              (listed.map Prod.fst)]) := by
  dsimp only
  have initial : ProxyInvariant fingerprint
      (identityRefs.filter fun identityRef => identityRef.source = .agent) .initial [] :=
    ⟨rfl, fun _ _ none => absurd none (by simp [FilteredAgentProxy.initial]), eachAfter_nil _⟩
  have step : ∀ proxy trace event, ProxyInvariant fingerprint
        (identityRefs.filter fun identityRef => identityRef.source = .agent) proxy trace →
      ProxyInvariant fingerprint
        (identityRefs.filter fun identityRef => identityRef.source = .agent)
        ((filteredAgentProxy fingerprint identityRefs).step proxy event).1
        (trace ++ ((filteredAgentProxy fingerprint identityRefs).step proxy event).2) :=
    fun _ _ event inv => step_keeps inv event
  have inv := (filteredAgentProxy fingerprint identityRefs).run_preserves_trace step initial events
  refine ⟨inv.history, ?_, ?_, ?_, ?_⟩
  · intro identity
    simp only [admits, agentIdentityBlobMatches, any_eq_true, mem_filter,
      decide_eq_true_eq, and_assoc]
  · intro identityRef expected pinned key comment hit
    exact pinned_reference_matches pinned hit
  · intro connection request stream answer waits asked read kind malformed
    exact malformed_answer_refused waits asked read kind malformed
  · intro connection request stream identities waits asked read writable
    exact wellFormed_answer_listed waits asked read writable

def labelRef : IdentityRef := ⟨"id", "k", .agent, none, none, none⟩

def agentFrame (payload : List UInt8) : List UInt8 := u32ToBeBytes payload.length ++ payload

/-- A request for the identities, and the answer with the given ones. -/
def identitiesEvents (connection : Nat) (identities : List AgentIdentity) : List AgentEvent :=
  [.request connection (agentFrame [sshAgentRequestIdentities]), .forwarded connection,
    .upstreamAnswer connection (agentFrame (identitiesAnswer identities)), .answered connection]

def signRequest (key : List UInt8) : List UInt8 := sshAgentSignRequest :: sshString key

/-- A sign request reaches the upstream after another connection has got an answer without its key; and
a truncated list of identities is passed on when it answers a sign request. -/
theorem checked_request_overtaken :
    (∃ before after,
        ((filteredAgentProxy (fun _ => none) [labelRef]).run .initial
          ([.accept 0, .accept 1] ++ identitiesEvents 0 [([7], [107])] ++
            [.request 0 (agentFrame (signRequest [7]))] ++ identitiesEvents 1 [] ++ [.forwarded 0])).2 =
          before ++ .toUpstream 0 (signRequest [7]) :: after ∧ [7] ∉ lastKeys before) ∧
      .toClient 0 [sshAgentIdentitiesAnswer] ∈
        ((filteredAgentProxy (fun _ => none) [labelRef]).run .initial
          ([.accept 0] ++ identitiesEvents 0 [([7], [107])] ++
            [.request 0 (agentFrame (signRequest [7])), .forwarded 0,
              .upstreamAnswer 0 (agentFrame [sshAgentIdentitiesAnswer]), .answered 0])).2 := by
  refine ⟨⟨((filteredAgentProxy (fun _ => none) [labelRef]).run .initial
    ([.accept 0, .accept 1] ++ identitiesEvents 0 [([7], [107])] ++
      [.request 0 (agentFrame (signRequest [7]))] ++ identitiesEvents 1 [])).2, [], ?_, ?_⟩, ?_⟩
  · decide
  · decide
  · decide

end PortMate
