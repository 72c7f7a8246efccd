import PortMate.ModeAgreement
import PortMate.TelnetInvariant

namespace PortMate

open List TelnetSignal Function TelnetRuntimeState

/-- Reads a byte stream for the option requests in it, without answering them. -/
def requestScanner : Transducer TelnetState UInt8 (UInt8 × UInt8) where
  step state byte :=
    match state with
    | .data => if byte = telnetIac then (.iac, []) else (.data, [])
    | .iac =>
      if byte = telnetIac then (.data, [])
      else if byte = telnetDo ∨ byte = telnetDont ∨ byte = telnetWill ∨ byte = telnetWont then
        (.command byte, [])
      else if byte = telnetSb then (.subnegotiation, [])
      else (.data, [])
    | .command command => (.data, [(command, byte)])
    | .subnegotiation =>
      if byte = telnetIac then (.subnegotiationIac, []) else (.subnegotiation, [])
    | .subnegotiationIac => if byte = telnetSe then (.data, []) else (.subnegotiation, [])

theorem step_state_eq_scanner (n : TelnetNegotiator) (byte : UInt8) :
    (telnetTransducer.step n byte).1.state = (requestScanner.step n.state byte).1 := by
  cases state : n.state with
  | data =>
    by_cases escaped : byte = telnetIac
    · subst escaped
      simp [step_data_iac state, requestScanner]
    · simp [step_data_byte state escaped, requestScanner, escaped, state]
  | iac =>
    simp only [telnetTransducer, filterByte, FilterLoop.start, state, requestScanner]
    split_ifs <;> rfl
  | command command => simp [telnetTransducer, filterByte, FilterLoop.start, state, requestScanner]
  | subnegotiation =>
    obtain ⟨-, -, same, -⟩ := pushSubnegotiation_unnegotiated n byte
    simp only [telnetTransducer, filterByte, FilterLoop.start, state, requestScanner]
    split_ifs
    · rfl
    · exact same.trans state
  | subnegotiationIac =>
    simp only [telnetTransducer, filterByte, FilterLoop.start, state, requestScanner]
    split_ifs <;> simp_all [telnetSe, telnetIac]

theorem scanner_quiet {state : TelnetState} (quiet : ∀ verb, state ≠ .command verb)
    (byte : UInt8) : (requestScanner.step state byte).2 = [] := by
  cases state with
  | command verb => exact absurd rfl (quiet verb)
  | _ =>
    simp only [requestScanner]
    split_ifs <;> rfl

variable (side : OptionSide)

theorem scanner_request (enable : Bool) (option : UInt8) :
    requestScanner.run .data [telnetIac, requestVerb side enable, option] =
      (.data, [(requestVerb side enable, option)]) := by
  cases side <;> cases enable <;> rfl

theorem scanner_escapeIac (byte : UInt8) :
    requestScanner.run .subnegotiation (escapeIac byte) = (.subnegotiation, []) := by
  by_cases escaped : byte = telnetIac
  · subst escaped
    rfl
  · simp [escapeIac, escaped, requestScanner]

theorem scanner_escaped (payload : List UInt8) :
    requestScanner.run .subnegotiation (payload.flatMap escapeIac) = (.subnegotiation, []) := by
  induction payload with
  | nil => rfl
  | cons byte payload ih =>
    simp [flatMap_cons, Transducer.run_append, scanner_escapeIac, ih]

theorem scanner_subnegotiation {message : List UInt8} (h : IsSubnegotiation message) :
    requestScanner.run .data message = (.data, []) := by
  obtain ⟨payload, rfl⟩ := h
  have opened : requestScanner.run .data [telnetIac, telnetSb] = (.subnegotiation, []) := rfl
  have closed : requestScanner.run .subnegotiation [telnetIac, telnetSe] = (.data, []) := rfl
  rw [Transducer.run_append, Transducer.run_append, opened, scanner_escaped, closed]
  rfl

theorem scanner_subnegotiations {messages : List (List UInt8)}
    (h : ∀ message ∈ messages, IsSubnegotiation message) :
    requestScanner.run .data messages.flatten = (.data, []) := by
  induction messages with
  | nil => rfl
  | cons message messages ih =>
    obtain ⟨first, others⟩ := forall_mem_cons.mp h
    simp [Transducer.run_append, scanner_subnegotiation first, ih others]

/-- Two negotiators and the bytes on their way to each of them. -/
structure TelnetPeers where
  node : Party → TelnetNegotiator
  wire : Party → List UInt8

def TelnetPeers.connected (profile : Party → TelnetProfile) : TelnetPeers :=
  ⟨fun p => .new (.fromProfile (profile p)), fun _ => []⟩

/-- `p` reads a chunk from its wire and sends what `filter` replies. -/
def TelnetPeers.deliver (peers : TelnetPeers) (p : Party) (chunk rest : List UInt8) :
    TelnetPeers :=
  let read := (peers.node p).filter chunk
  ⟨update peers.node p read.1,
    update (update peers.wire p rest) p.other
      (peers.wire p.other ++ read.2.2.flatten)⟩

def TelnetPeers.inject (peers : TelnetPeers) (p : Party) (side : OptionSide) (enable : Bool)
    (option : UInt8) : TelnetPeers :=
  { peers with
    wire := update peers.wire p
      (peers.wire p ++ [telnetIac, requestVerb side enable, option]) }

def isOptionReply : List UInt8 → Bool
  | [iac, verb, _] =>
    decide (iac = telnetIac ∧
      (verb = telnetDo ∨ verb = telnetDont ∨ verb = telnetWill ∨ verb = telnetWont))
  | _ => false

/-- The runs, with the option replies sent and the requests injected so far. -/
inductive PeersRun (profile : Party → TelnetProfile)
    (admits : TelnetPeers → Party → OptionSide → Bool → UInt8 → Prop) :
    TelnetPeers → Nat → Nat → Prop
  | start : PeersRun profile admits (.connected profile) 0 0
  | deliver {peers : TelnetPeers} {replies injected : Nat}
      (run : PeersRun profile admits peers replies injected) (p : Party)
      (chunk rest : List UInt8) (next : peers.wire p = chunk ++ rest) :
      PeersRun profile admits (peers.deliver p chunk rest)
        (replies + ((peers.node p).filter chunk).2.2.countP isOptionReply) injected
  | inject {peers : TelnetPeers} {replies injected : Nat} {p : Party} {side : OptionSide}
      {enable : Bool} {option : UInt8} (run : PeersRun profile admits peers replies injected)
      (admitted : admits peers p side enable option) :
      PeersRun profile admits (peers.inject p side enable option) replies (injected + 1)

/-- The requests that `p` will read from its wire, the one it is reading included. -/
def TelnetPeers.pending (peers : TelnetPeers) (p : Party) : List (UInt8 × UInt8) :=
  (requestScanner.run (peers.node p).state (peers.wire p)).2

def requestsFor (side : OptionSide) (option : UInt8) : List (UInt8 × UInt8) → List Bool :=
  List.filterMap fun request =>
    if request = (requestVerb side true, option) then some true
    else if request = (requestVerb side false, option) then some false
    else none

@[simp] theorem requestsFor_append (option : UInt8) (xs ys : List (UInt8 × UInt8)) :
    requestsFor side option (xs ++ ys) = requestsFor side option xs ++ requestsFor side option ys :=
  filterMap_append

theorem requestsFor_single (side side' : OptionSide) (option option' : UInt8) (enable : Bool) :
    requestsFor side option [(requestVerb side' enable, option')] =
      if side' = side ∧ option' = option then [enable] else [] := by
  by_cases same : option' = option
  · cases side <;> cases side' <;> cases enable <;>
      simp [requestsFor, same, requestVerb, telnetDo, telnetDont, telnetWill, telnetWont]
  · simp [requestsFor, same]

/-- An option of one side at the left peer is the other side's at the right peer. -/
def OptionSide.seenBy (side : OptionSide) : Party → OptionSide
  | .left => side
  | .right => side.flip

@[simp] theorem OptionSide.seenBy_seenBy (p : Party) : (side.seenBy p).seenBy p = side := by
  cases p <;> simp [seenBy]

@[simp] theorem OptionSide.seenBy_other (p : Party) :
    side.seenBy p.other = (side.seenBy p).flip := by
  cases p <;> simp [seenBy, Party.other]

@[simp] theorem OptionSide.seenBy_inj {side side' : OptionSide} {p : Party} :
    side.seenBy p = side'.seenBy p ↔ side = side' :=
  ⟨fun same => by rw [← side.seenBy_seenBy p, same, side'.seenBy_seenBy], fun same => by rw [same]⟩

/-- What the peers know and still ask about one option. -/
def TelnetPeers.agreement (peers : TelnetPeers) (side : OptionSide) (option : UInt8) :
    ModeAgreement :=
  ⟨fun p => (peers.node p).options (side.seenBy p) option,
    fun p => requestsFor (side.seenBy p) option (peers.pending p)⟩

@[simp] theorem agreement_mode (peers : TelnetPeers) (side : OptionSide) (option : UInt8)
    (p : Party) :
    (peers.agreement side option).mode p = (peers.node p).options (side.seenBy p) option := rfl

theorem agreement_requests (peers : TelnetPeers) (side : OptionSide) (option : UInt8) (p : Party) :
    (peers.agreement side option).requests p =
      requestsFor (side.seenBy p) option (peers.pending p) := rfl

def peerGrants (profile : Party → TelnetProfile) (side : OptionSide) (option : UInt8)
    (p : Party) : Bool :=
  (fromProfile (profile p)).accepts (side.seenBy p) option

/-- No opposite request for an option that both peers accept is under way. -/
def unopposed (profile : Party → TelnetProfile) (peers : TelnetPeers) (p : Party)
    (side : OptionSide) (enable : Bool) (option : UInt8) : Prop :=
  (peers.agreement (side.seenBy p) option).Unopposed
    (peerGrants profile (side.seenBy p) option) enable

/-- Every message under way is complete, and nobody changed the profiles. -/
structure TelnetPeers.Framed (profile : Party → TelnetProfile) (peers : TelnetPeers) : Prop where
  complete : ∀ p, (requestScanner.run (peers.node p).state (peers.wire p)).1 = .data
  verb : ∀ p verb, (peers.node p).state = .command verb →
    ∃ side enable, verb = requestVerb side enable
  accepts : ∀ p, (peers.node p).runtime.accepts =
    (fromProfile (profile p)).accepts

theorem TelnetPeers.Framed.grants {profile : Party → TelnetProfile} {peers : TelnetPeers}
    (framed : peers.Framed profile) (side : OptionSide) (option : UInt8) (p : Party) :
    (peers.node p).runtime.accepts (side.seenBy p) option = peerGrants profile side option p := by
  rw [framed.accepts p]
  rfl

section Read

variable {profile : Party → TelnetProfile} {peers : TelnetPeers} {p : Party} {byte : UInt8}
  {rest : List UInt8}

@[simp] theorem read_node : (peers.deliver p [byte] rest).node p =
    (telnetTransducer.step (peers.node p) byte).1 := by
  simp [TelnetPeers.deliver, filter_eq_run]

@[simp] theorem read_node_other :
    (peers.deliver p [byte] rest).node p.other = peers.node p.other := by
  simp [TelnetPeers.deliver]

@[simp] theorem read_wire : (peers.deliver p [byte] rest).wire p = rest := by
  simp [TelnetPeers.deliver]

@[simp] theorem read_wire_other : (peers.deliver p [byte] rest).wire p.other =
    peers.wire p.other ++ (replied (telnetTransducer.step (peers.node p) byte).2).flatten := by
  simp [TelnetPeers.deliver, filter_eq_run]

theorem read_pending (next : peers.wire p = byte :: rest) :
    peers.pending p = (requestScanner.step (peers.node p).state byte).2 ++
      (peers.deliver p [byte] rest).pending p := by
  simp [TelnetPeers.pending, next, step_state_eq_scanner]

theorem read_pending_other (framed : peers.Framed profile) :
    (peers.deliver p [byte] rest).pending p.other = peers.pending p.other ++
      (requestScanner.run .data
        (replied (telnetTransducer.step (peers.node p) byte).2).flatten).2 := by
  simp [TelnetPeers.pending, Transducer.run_append, framed.complete p.other]

theorem read_framed (framed : peers.Framed profile) (next : peers.wire p = byte :: rest)
    (whole : (requestScanner.run .data
      (replied (telnetTransducer.step (peers.node p) byte).2).flatten).1 = .data)
    (verb : ∀ verb, (telnetTransducer.step (peers.node p) byte).1.state = .command verb →
      ∃ side enable, verb = requestVerb side enable)
    (accepts : (telnetTransducer.step (peers.node p) byte).1.runtime.accepts =
      (peers.node p).runtime.accepts) :
    (peers.deliver p [byte] rest).Framed profile where
  complete q := by
    rcases p.eq_or_eq_other q with rfl | rfl
    · simpa [next, step_state_eq_scanner] using framed.complete q
    · simpa [Transducer.run_append, framed.complete p.other] using whole
  verb q := by
    rcases p.eq_or_eq_other q with rfl | rfl
    · simpa using verb
    · simpa using framed.verb p.other
  accepts q := by
    rcases p.eq_or_eq_other q with rfl | rfl
    · simpa using accepts.trans (framed.accepts q)
    · simpa using framed.accepts p.other

theorem read_quiet (framed : peers.Framed profile) (next : peers.wire p = byte :: rest)
    (quiet : ∀ verb, (peers.node p).state ≠ .command verb) :
    (peers.deliver p [byte] rest).Framed profile ∧
      (peers.deliver p [byte] rest).agreement = peers.agreement := by
  have step := step_unnegotiated quiet byte
  have whole := scanner_subnegotiations step.replies
  refine ⟨read_framed framed next (by rw [whole]) step.verb (by rw [step.runtime]), ?_⟩
  funext side option
  refine ModeAgreement.ext_at p ?_ ?_ ?_ ?_
  · rw [agreement_mode, agreement_mode, read_node]
    cases side.seenBy p <;>
      simp [TelnetNegotiator.options, step.localOptions, step.remoteOptions]
  · simp
  · rw [agreement_requests, agreement_requests, read_pending next, scanner_quiet quiet,
      nil_append]
  · rw [agreement_requests, agreement_requests, read_pending_other framed, whole,
      append_nil]

end Read

end PortMate
