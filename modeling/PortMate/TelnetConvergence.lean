import Mathlib.Algebra.Order.Group.Multiset
import PortMate.TelnetPeers

namespace PortMate

open List TelnetSignal Function ModeAgreement TelnetPeers

theorem isOptionReply_request (side : OptionSide) (enable : Bool) (option : UInt8) :
    isOptionReply [telnetIac, requestVerb side enable, option] = true := by
  simpa [isOptionReply] using requestVerb_is_verb side enable |>.imp_right
    fun h => h.imp_right fun h => h

theorem isOptionReply_subnegotiation {message : List UInt8} (h : IsSubnegotiation message) :
    isOptionReply message = false := by
  obtain ⟨payload, rfl⟩ := h
  cases framed : payload.flatMap escapeIac with
  | nil => rfl
  | cons byte bytes => simp [isOptionReply]

theorem countP_subnegotiations {messages : List (List UInt8)}
    (h : ∀ message ∈ messages, IsSubnegotiation message) : messages.countP isOptionReply = 0 :=
  countP_eq_zero.mpr fun message mem => by simp [isOptionReply_subnegotiation (h message mem)]

section Request

variable {profile : Party → TelnetProfile} {peers : TelnetPeers} {p : Party} {option : UInt8}
  {rest : List UInt8} {side : OptionSide} {enable : Bool}

theorem read_requests (next : peers.wire p = option :: rest)
    (state : (peers.node p).state = .command (requestVerb (side.seenBy p) enable))
    (side' : OptionSide) (option' : UInt8) :
    (peers.agreement side' option').requests p =
      (if side' = side ∧ option' = option then [enable] else []) ++
        ((peers.deliver p [option] rest).agreement side' option').requests p := by
  have scanned : (requestScanner.step (peers.node p).state option).2 =
      [(requestVerb (side.seenBy p) enable, option)] := by simp [requestScanner, state]
  simp only [agreement_requests, read_pending next, scanned, requestsFor_append,
    requestsFor_single, OptionSide.seenBy_inj, eq_comm]

theorem read_in_force (framed : peers.Framed profile) (next : peers.wire p = option :: rest)
    (state : (peers.node p).state = .command (requestVerb (side.seenBy p) enable))
    (inForce : (peers.node p).options (side.seenBy p) option = enable) :
    replied (telnetTransducer.step (peers.node p) option).2 = [] ∧
      (peers.deliver p [option] rest).Framed profile ∧
      ∀ side' option', (peers.deliver p [option] rest).agreement side' option' =
        (peers.agreement side' option').ignore p
          (((peers.deliver p [option] rest).agreement side' option').requests p) := by
  have step := step_command state option
  rw [if_pos inForce] at step
  have silent : replied (telnetTransducer.step (peers.node p) option).2 = [] := by rw [step]; rfl
  refine ⟨silent, read_framed framed next (by rw [silent]; rfl) (by simp [step]) (by simp [step]),
    fun side' option' => ?_⟩
  refine ext_at p ?_ ?_ ?_ ?_
  · simp [step]
  · simp
  · simp
  · rw [ignore_requests_other, agreement_requests, agreement_requests,
      read_pending_other framed, silent]
    simp

theorem read_answered (framed : peers.Framed profile) (next : peers.wire p = option :: rest)
    (state : (peers.node p).state = .command (requestVerb (side.seenBy p) enable))
    (changes : (peers.node p).options (side.seenBy p) option ≠ enable) :
    (replied (telnetTransducer.step (peers.node p) option).2).countP isOptionReply = 1 ∧
      (peers.deliver p [option] rest).Framed profile ∧
      (peers.deliver p [option] rest).agreement side option =
        (peers.agreement side option).answer p (enable && peerGrants profile side option p)
          (((peers.deliver p [option] rest).agreement side option).requests p) ∧
      ∀ side' option', ¬(side' = side ∧ option' = option) →
        (peers.deliver p [option] rest).agreement side' option' =
          peers.agreement side' option' := by
  have step := step_command state option
  rw [if_neg changes, framed.grants] at step
  generalize (enable && peerGrants profile side option p) = granted at step ⊢
  have sent : replied (telnetTransducer.step (peers.node p) option).2 =
      [telnetIac, requestVerb (side.seenBy p).flip granted, option] ::
        nawsFollowUp (peers.node p) (side.seenBy p) option granted := by
    rw [step, replied_map_reply]
  have naws : ∀ message ∈ nawsFollowUp (peers.node p) (side.seenBy p) option granted,
      IsSubnegotiation message := fun _ => nawsFollowUp_isSubnegotiation
  have scanned : requestScanner.run .data
      (replied (telnetTransducer.step (peers.node p) option).2).flatten =
      (.data, [(requestVerb (side.seenBy p).flip granted, option)]) := by
    rw [sent, flatten_cons, Transducer.run_append, scanner_request,
      scanner_subnegotiations naws]
    rfl
  have answered : ∀ side' option', (telnetTransducer.step (peers.node p) option).1.options
      (side'.seenBy p) option' = if side' = side ∧ option' = option then granted
        else (peers.node p).options (side'.seenBy p) option' := fun side' option' => by
    simp only [step, goto_options, answered_options, OptionSide.seenBy_inj]
  refine ⟨?_, read_framed framed next (by rw [scanned]) (by simp [step]) (by simp [step]), ?_,
    fun side' option' differs => ?_⟩
  · rw [sent, countP_cons, countP_subnegotiations naws, isOptionReply_request]
    rfl
  · refine ext_at p ?_ ?_ ?_ ?_
    · simp [answered]
    · simp
    · simp
    · simp [agreement_requests, read_pending_other framed, scanned, requestsFor_single]
  · refine ext_at p ?_ ?_ ?_ ?_
    · simp [answered, differs]
    · simp
    · have requests := read_requests next state side' option'
      rw [if_neg differs, nil_append] at requests
      exact requests.symm
    · have differs' : ¬(side = side' ∧ option = option') := by
        simpa only [eq_comm] using differs
      simp [agreement_requests, read_pending_other framed, scanned, requestsFor_single, differs']

end Request

/-- Option by option the peers run the agreement of one switch. -/
def Simulated (profile : Party → TelnetProfile) (peers : TelnetPeers) (replies injected : Nat) :
    Prop :=
  ∃ answered asked : Multiset (OptionSide × UInt8),
    answered.card = replies ∧ asked.card = injected ∧
      ∀ side option, ModeAgreement.Run (peerGrants profile side option)
        (peers.agreement side option) (answered.count (side, option)) (asked.count (side, option))

variable {profile : Party → TelnetProfile} {peers : TelnetPeers} {replies injected : Nat}

theorem read_simulated {p : Party} {byte : UInt8} {rest : List UInt8}
    (framed : peers.Framed profile) (simulated : Simulated profile peers replies injected)
    (next : peers.wire p = byte :: rest) :
    (peers.deliver p [byte] rest).Framed profile ∧
      Simulated profile (peers.deliver p [byte] rest)
        (replies + ((peers.node p).filter [byte]).2.2.countP isOptionReply) injected := by
  obtain ⟨answered, asked, rfl, rfl, runs⟩ := simulated
  have sent : ((peers.node p).filter [byte]).2.2 =
      replied (telnetTransducer.step (peers.node p) byte).2 := by simp [filter_eq_run]
  rw [sent]
  by_cases quiet : ∀ verb, (peers.node p).state ≠ .command verb
  · obtain ⟨framed', same⟩ := read_quiet framed next quiet
    refine ⟨framed', answered, asked, ?_, rfl, fun side option => ?_⟩
    · rw [countP_subnegotiations (step_unnegotiated quiet byte).replies, Nat.add_zero]
    · rw [same]
      exact runs side option
  obtain ⟨verb, state⟩ : ∃ verb, (peers.node p).state = .command verb := by simpa using quiet
  obtain ⟨seen, enable, rfl⟩ := framed.verb p verb state
  obtain ⟨side, rfl⟩ : ∃ side : OptionSide, seen = side.seenBy p := ⟨seen.seenBy p, by simp⟩
  by_cases inForce : (peers.node p).options (side.seenBy p) byte = enable
  · obtain ⟨silent, framed', ignored⟩ := read_in_force framed next state inForce
    refine ⟨framed', answered, asked, by simp [silent], rfl, fun side' option' => ?_⟩
    have requests := read_requests next state side' option'
    rw [ignored]
    split_ifs at requests with same
    · obtain ⟨rfl, rfl⟩ := same
      exact (runs _ _).ignore requests inForce
    · rw [← nil_append (((peers.deliver p [byte] rest).agreement side' option').requests p),
        ← requests, ignore_self]
      exact runs side' option'
  · obtain ⟨once, framed', changed, kept⟩ := read_answered framed next state inForce
    refine ⟨framed', (side, byte) ::ₘ answered, asked, by simp [once], rfl,
      fun side' option' => ?_⟩
    by_cases same : side' = side ∧ option' = byte
    · obtain ⟨rfl, rfl⟩ := same
      have requests := read_requests next state side' option'
      simp only [and_self, ↓reduceIte, singleton_append] at requests
      rw [changed, Multiset.count_cons_self]
      exact (runs _ _).answer requests inForce
    · have other : (side, byte) ≠ (side', option') := fun h => same (by simp_all)
      rw [kept side' option' same, Multiset.count_cons_of_ne other.symm]
      exact runs side' option'

theorem deliver_cons (peers : TelnetPeers) (p : Party) (byte : UInt8) (chunk rest : List UInt8) :
    peers.deliver p (byte :: chunk) rest =
      (peers.deliver p [byte] (chunk ++ rest)).deliver p chunk rest := by
  have split := filter_append (peers.node p) [byte] chunk
  refine TelnetPeers.mk.injEq .. |>.mpr ⟨funext fun q => ?_, funext fun q => ?_⟩
  · rcases p.eq_or_eq_other q with rfl | rfl
    · simpa [TelnetPeers.deliver] using congrArg Prod.fst split
    · simp [TelnetPeers.deliver]
  · rcases p.eq_or_eq_other q with rfl | rfl
    · simp [TelnetPeers.deliver]
    · have replies := congrArg (fun result => result.2.2.flatten) split
      simpa [TelnetPeers.deliver] using replies

theorem deliver_simulated {p : Party} {chunk rest : List UInt8} (framed : peers.Framed profile)
    (simulated : Simulated profile peers replies injected) (next : peers.wire p = chunk ++ rest) :
    (peers.deliver p chunk rest).Framed profile ∧
      Simulated profile (peers.deliver p chunk rest)
        (replies + ((peers.node p).filter chunk).2.2.countP isOptionReply) injected := by
  induction chunk generalizing peers replies with
  | nil =>
    obtain rfl : peers.wire p = rest := next
    have still : peers.deliver p [] (peers.wire p) = peers := by
      simp [TelnetPeers.deliver, filter_eq_run, replied]
    rw [still]
    exact ⟨framed, simulated⟩
  | cons byte chunk ih =>
    obtain ⟨framed', simulated'⟩ := read_simulated framed simulated next
    have both := ih framed' simulated' read_wire
    have split := congrArg (fun result => result.2.2.countP isOptionReply)
      (filter_append (peers.node p) [byte] chunk)
    rw [deliver_cons]
    simpa [split, filter_eq_run, Nat.add_assoc] using both

theorem inject_simulated {p : Party} {side : OptionSide} {enable : Bool} {option : UInt8}
    (framed : peers.Framed profile) (simulated : Simulated profile peers replies injected)
    (admitted : unopposed profile peers p side enable option) :
    (peers.inject p side enable option).Framed profile ∧
      Simulated profile (peers.inject p side enable option) replies (injected + 1) := by
  obtain ⟨answered, asked, rfl, rfl, runs⟩ := simulated
  have pending : (peers.inject p side enable option).pending p =
      peers.pending p ++ [(requestVerb side enable, option)] := by
    simp [TelnetPeers.pending, TelnetPeers.inject, Transducer.run_append, framed.complete p,
      scanner_request, -Transducer.run_cons]
  have pending_other : (peers.inject p side enable option).pending p.other =
      peers.pending p.other := by
    simp [TelnetPeers.pending, TelnetPeers.inject]
  refine ⟨⟨fun q => ?_, framed.verb, framed.accepts⟩, answered, (side.seenBy p, option) ::ₘ asked,
    rfl, Multiset.card_cons _ _, fun side' option' => ?_⟩
  · rcases p.eq_or_eq_other q with rfl | rfl
    · simp [TelnetPeers.inject, Transducer.run_append, framed.complete q, scanner_request,
        -Transducer.run_cons]
    · simpa [TelnetPeers.inject] using framed.complete p.other
  · by_cases same : side' = side.seenBy p ∧ option' = option
    · obtain ⟨rfl, rfl⟩ := same
      have asks : (peers.inject p side enable option').agreement (side.seenBy p) option' =
          (peers.agreement (side.seenBy p) option').ask p enable := by
        refine ext_at p rfl rfl ?_ ?_
        · simp [agreement_requests, pending, requestsFor_single]
        · simp [agreement_requests, pending_other]
      rw [asks, Multiset.count_cons_self]
      exact (runs _ _).ask p enable admitted
    · have other : (side.seenBy p, option) ≠ (side', option') := fun h => same (by simp_all)
      have kept : (peers.inject p side enable option).agreement side' option' =
          peers.agreement side' option' := by
        refine ext_at p rfl rfl ?_ ?_
        · have elsewhere : ¬(side = side'.seenBy p ∧ option = option') := by
            rintro ⟨rfl, rfl⟩
            exact same ⟨by simp, rfl⟩
          simp [agreement_requests, pending, requestsFor_single, elsewhere]
        · simp [agreement_requests, pending_other]
      rw [kept, Multiset.count_cons_of_ne other.symm]
      exact runs side' option'

theorem connected_simulated (profile : Party → TelnetProfile) :
    (connected profile).Framed profile ∧
      Simulated profile (.connected profile) 0 0 := by
  refine ⟨⟨fun _ => rfl, ?_, fun _ => rfl⟩, 0, 0, rfl, rfl, fun side option => ?_⟩
  · intro _ _ state
    exact nomatch state
  have start : (connected profile).agreement side option = .start := by
    refine ext_at .left ?_ ?_ rfl rfl
    · cases side <;> rfl
    · cases side <;> rfl
  rw [start]
  exact .start

theorem peersRun_simulated (run : PeersRun profile (unopposed profile) peers replies injected) :
    peers.Framed profile ∧ Simulated profile peers replies injected := by
  induction run with
  | start => exact connected_simulated profile
  | deliver _ _ _ _ next ih => exact deliver_simulated ih.1 ih.2 next
  | inject _ admitted ih => exact inject_simulated ih.1 ih.2 admitted

theorem simulated_replies_le (simulated : Simulated profile peers replies injected) :
    replies ≤ 3 * injected := by
  obtain ⟨answered, asked, rfl, rfl, runs⟩ := simulated
  have each : answered ≤ 3 • asked := by
    refine Multiset.le_iff_count.mpr fun key => ?_
    simpa using (runs key.1 key.2).answers_le
  simpa using Multiset.card_le_card each

theorem negotiation_invariant_and_settles (profile : Party → TelnetProfile) :
    (∀ p input, Negotiated ((TelnetNegotiator.new (.fromProfile (profile p))).filter input).1
      ((TelnetNegotiator.new (.fromProfile (profile p))).filter input).2.2) ∧
    (∀ p input side enable option,
      ((TelnetNegotiator.new (.fromProfile (profile p))).filter input).1.state =
        .command (requestVerb side enable) →
      ((TelnetNegotiator.new (.fromProfile (profile p))).filter input).1.options side option =
        enable →
      (((TelnetNegotiator.new (.fromProfile (profile p))).filter input).1.filter [option]).2.2 =
        []) ∧
    ∀ peers replies injected, PeersRun profile (unopposed profile) peers replies injected →
      replies ≤ 3 * injected := by
  refine ⟨fun p input => negotiated_filter (profile p) input, fun p input side enable option state
    inForce => ?_, fun peers replies injected run => ?_⟩
  · rw [request_in_force_unanswered state inForce]
  · exact simulated_replies_le (peersRun_simulated run).2

def terminalProfile : TelnetProfile := ⟨true, true, 80, 24, "xterm-256color"⟩

/-- The bytes DO and DONT for the go-ahead option. -/
def doThenDont : List UInt8 := [255, 253, 3, 255, 254, 3]

def willThenWont : List UInt8 := [255, 251, 3, 255, 252, 3]

theorem goAhead_request_answered_once :
    ∃ peers, PeersRun (fun _ => terminalProfile) (unopposed fun _ => terminalProfile) peers 1 1 ∧
      1 ≤ 3 * 1 :=
  have asked : PeersRun (fun _ => terminalProfile) (unopposed fun _ => terminalProfile)
      ((connected fun _ => terminalProfile).inject .left .ours true 3) 0 1 :=
    .inject .start fun _ p pending mem => by cases p <;> exact nomatch mem
  have read := asked.deliver .left [255, 253, 3] [] rfl
  ⟨_, read, (negotiation_invariant_and_settles fun _ => terminalProfile).2.2 _ _ _ read⟩

theorem update_true_false :
    update (update (fun _ : UInt8 => false) 3 true) 3 false = fun _ => false := by
  simp

theorem new_filter_doThenDont :
    (TelnetNegotiator.new (.fromProfile terminalProfile)).filter doThenDont =
      (.new (.fromProfile terminalProfile), [], [[255, 251, 3], [255, 252, 3]]) := by
  have read : (TelnetNegotiator.new (.fromProfile terminalProfile)).filter doThenDont =
      ({ TelnetNegotiator.new (.fromProfile terminalProfile) with
          localOptions := update (update (fun _ => false) 3 true) 3 false },
        [], [[255, 251, 3], [255, 252, 3]]) := rfl
  rw [read, update_true_false]
  rfl

theorem new_filter_willThenWont :
    (TelnetNegotiator.new (.fromProfile terminalProfile)).filter willThenWont =
      (.new (.fromProfile terminalProfile), [], [[255, 253, 3], [255, 254, 3]]) := by
  have read : (TelnetNegotiator.new (.fromProfile terminalProfile)).filter willThenWont =
      ({ TelnetNegotiator.new (.fromProfile terminalProfile) with
          remoteOptions := update (update (fun _ => false) 3 true) 3 false },
        [], [[255, 253, 3], [255, 254, 3]]) := rfl
  rw [read, update_true_false]
  rfl

/-- DO and DONT under way to the left peer, neither read yet. -/
def opposedPeers : TelnetPeers :=
  ((connected fun _ => terminalProfile).inject .left .ours true 3).inject
    .left .ours false 3

theorem opposedPeers_chase :
    (opposedPeers.deliver .left doThenDont []).deliver .right willThenWont [] = opposedPeers := by
  have new (p : Party) : opposedPeers.node p = .new (.fromProfile terminalProfile) := rfl
  have wire : opposedPeers.wire .right = [] := rfl
  refine TelnetPeers.mk.injEq .. |>.mpr ⟨funext fun q => ?_, funext fun q => ?_⟩
  · cases q <;>
      simp [TelnetPeers.deliver, new, new_filter_doThenDont, new_filter_willThenWont] <;> rfl
  · cases q <;>
      simp [TelnetPeers.deliver, Party.other, new, wire, new_filter_doThenDont,
        new_filter_willThenWont] <;> rfl

theorem opposedPeers_reply_for_ever (rounds : Nat) :
    PeersRun (fun _ => terminalProfile) (fun _ _ _ _ _ => True) opposedPeers (4 * rounds) 2 := by
  induction rounds with
  | zero => exact (PeersRun.start.inject trivial).inject trivial
  | succ rounds ih =>
    have there := ih.deliver .left doThenDont [] rfl
    have back := there.deliver .right willThenWont [] rfl
    rw [opposedPeers_chase] at back
    exact back

theorem opposed_requests_never_settle :
    ¬∀ injected, ∃ bound, ∀ peers replies,
      PeersRun (fun _ => terminalProfile) (fun _ _ _ _ _ => True) peers replies injected →
        replies ≤ bound := by
  intro settles
  obtain ⟨bound, all⟩ := settles 2
  have most := all _ _ (opposedPeers_reply_for_ever (bound + 1))
  omega

end PortMate
