import PortMate.TelnetNegotiation

namespace PortMate

open List TelnetSignal FilterLoop TelnetNegotiator TelnetRuntimeState

/-- The answer a reply gives on an option; subnegotiations answer nothing. -/
def answeredVerb (side : OptionSide) (option : UInt8) : List UInt8 → Option UInt8
  | [iac, verb, answered] =>
    if iac = telnetIac ∧ answered = option ∧
        (verb = requestVerb side.flip true ∨ verb = requestVerb side.flip false) then some verb
    else none
  | _ => none

def lastAnswer (side : OptionSide) (option : UInt8) (replies : List (List UInt8)) :
    Option UInt8 :=
  (replies.filterMap (answeredVerb side option)).getLast?

theorem answeredVerb_subnegotiation (side : OptionSide) (option : UInt8) (rest : List UInt8) :
    answeredVerb side option (telnetIac :: telnetSb :: rest) = none := by
  match rest with
  | [] => rfl
  | [_] => cases side <;> simp [answeredVerb, requestVerb, OptionSide.flip, telnetSb, telnetDo,
      telnetDont, telnetWill, telnetWont]
  | _ :: _ :: _ => rfl

theorem answeredVerb_reply (side side' : OptionSide) (option option' : UInt8) (enabled : Bool) :
    answeredVerb side option [telnetIac, requestVerb side'.flip enabled, option'] =
      if side' = side ∧ option' = option then some (requestVerb side'.flip enabled) else none := by
  cases side <;> cases side' <;> cases enabled <;>
    simp [answeredVerb, requestVerb, OptionSide.flip, telnetDo, telnetDont, telnetWill, telnetWont]

def IsSubnegotiation (message : List UInt8) : Prop :=
  ∃ payload : List UInt8,
    message = [telnetIac, telnetSb] ++ payload.flatMap escapeIac ++ [telnetIac, telnetSe]

theorem telnetNawsMessage_isSubnegotiation (cols rows : UInt16) :
    IsSubnegotiation (telnetNawsMessage cols rows) :=
  ⟨telnetOptNaws :: (u16ToBeBytes cols ++ u16ToBeBytes rows), by
    simp [telnetNawsMessage, appendTelnetSubnegotiationPayload_eq, escapeIac, telnetOptNaws,
      telnetIac]⟩

theorem telnetSubnegotiationReply_isSubnegotiation {payload message : List UInt8}
    {terminalType : String} (h : telnetSubnegotiationReply payload terminalType = some message) :
    IsSubnegotiation message := by
  unfold telnetSubnegotiationReply at h
  split at h
  · cases Option.some.inj h
    exact ⟨telnetOptTerminalType :: telnetTtypeIs :: terminalType.toUTF8.toList, by
      simp [appendTelnetSubnegotiationPayload_eq, escapeIac, telnetOptTerminalType, telnetTtypeIs,
        telnetIac]⟩
  · simp at h

variable {side : OptionSide}

theorem lastAnswer_append_subnegotiations {option : UInt8} {replies more : List (List UInt8)}
    (silent : ∀ message ∈ more, IsSubnegotiation message) :
    lastAnswer side option (replies ++ more) = lastAnswer side option replies := by
  have none_answer : more.filterMap (answeredVerb side option) = [] := by
    apply filterMap_eq_nil_iff.mpr
    intro message mem
    obtain ⟨payload, rfl⟩ := silent message mem
    exact answeredVerb_subnegotiation side option _
  simp [lastAnswer, none_answer]

variable {n : TelnetNegotiator}

theorem nawsFollowUp_isSubnegotiation {option : UInt8} {enabled : Bool} {message : List UInt8}
    (mem : message ∈ nawsFollowUp n side option enabled) : IsSubnegotiation message := by
  unfold nawsFollowUp at mem
  split at mem
  · rw [mem_singleton.mp mem]
    exact telnetNawsMessage_isSubnegotiation _ _
  · simp at mem

theorem lastAnswer_append_reply (side side' : OptionSide) (option option' : UInt8)
    (enabled : Bool) (replies : List (List UInt8)) :
    lastAnswer side option (replies ++ [[telnetIac, requestVerb side'.flip enabled, option']]) =
      if side' = side ∧ option' = option then some (requestVerb side'.flip enabled)
      else lastAnswer side option replies := by
  unfold lastAnswer
  rw [filterMap_append, filterMap_cons, answeredVerb_reply]
  split_ifs <;> simp

theorem step_command {enable : Bool} (state : n.state = .command (requestVerb side enable))
    (option : UInt8) :
    telnetTransducer.step n option =
      if n.options side option = enable then ({ n with state := .data }, [])
      else
        ({ n.answered side option (enable && n.runtime.accepts side option) with state := .data },
          ([telnetIac, requestVerb side.flip (enable && n.runtime.accepts side option), option] ::
            nawsFollowUp n side option (enable && n.runtime.accepts side option)).map .reply) := by
  simp only [telnetTransducer, filterByte, state, start_negotiator,
    telnetOptionReplies_request]
  split_ifs <;> simp

/-- Bytes other than the option byte of a request leave the options alone. -/
structure Unnegotiated (n : TelnetNegotiator) (next : TelnetNegotiator × List TelnetSignal) :
    Prop where
  runtime : next.1.runtime = n.runtime
  localOptions : next.1.localOptions = n.localOptions
  remoteOptions : next.1.remoteOptions = n.remoteOptions
  replies : ∀ message ∈ replied next.2, IsSubnegotiation message
  bounded : n.subnegotiation.length ≤ 4096 → next.1.subnegotiation.length ≤ 4096
  verb : ∀ verb, next.1.state = .command verb → ∃ side enable, verb = requestVerb side enable

theorem pushDataByte_unnegotiated (n : TelnetNegotiator) (byte : UInt8) :
    (n.pushDataByte byte [] n.runtime.remoteBinary).1.localOptions = n.localOptions ∧
      (n.pushDataByte byte [] n.runtime.remoteBinary).1.remoteOptions = n.remoteOptions ∧
      (n.pushDataByte byte [] n.runtime.remoteBinary).1.subnegotiation = n.subnegotiation := by
  unfold pushDataByte
  split_ifs <;> exact ⟨rfl, rfl, rfl⟩

theorem pushSubnegotiation_unnegotiated (n : TelnetNegotiator) (byte : UInt8) :
    (n.pushSubnegotiation byte).localOptions = n.localOptions ∧
      (n.pushSubnegotiation byte).remoteOptions = n.remoteOptions ∧
      (n.pushSubnegotiation byte).state = n.state ∧
      (n.pushSubnegotiation byte).subnegotiation.length ≤ 4096 := by
  unfold pushSubnegotiation
  split_ifs with room
  · exact ⟨rfl, rfl, rfl, by simpa using Nat.succ_le_of_lt room.1⟩
  · exact ⟨rfl, rfl, rfl, by simp⟩

theorem step_unnegotiated (quiet : ∀ verb, n.state ≠ .command verb) (byte : UInt8) :
    Unnegotiated n (telnetTransducer.step n byte) := by
  cases state : n.state with
  | command verb => exact absurd state (quiet verb)
  | data =>
    by_cases escaped : byte = telnetIac
    · subst escaped
      rw [step_data_iac state]
      exact ⟨rfl, rfl, rfl, by simp [replied], id, by simp⟩
    · obtain ⟨same_local, same_remote, same_sub⟩ := pushDataByte_unnegotiated n byte
      rw [step_data_byte state escaped]
      exact ⟨by simp, same_local, same_remote, by simp, by simp [same_sub], by simp [state]⟩
  | iac =>
    by_cases escaped : byte = telnetIac
    · subst escaped
      obtain ⟨same_local, same_remote, same_sub⟩ := pushDataByte_unnegotiated n telnetIac
      rw [step_iac_iac state]
      exact ⟨by simp, same_local, same_remote, by simp, by simp [same_sub], by simp⟩
    simp only [telnetTransducer, filterByte, start, state, if_neg escaped]
    split_ifs with verb opened
    · refine ⟨rfl, rfl, rfl, by simp [goto, replied], id, fun verb' at_verb => ?_⟩
      obtain rfl : byte = verb' := by simpa [goto] using at_verb
      exact verb_is_requestVerb verb
    · exact ⟨rfl, rfl, rfl, by simp [replied], by simp, by simp⟩
    · exact ⟨rfl, rfl, rfl, by simp [goto, replied], id, by simp [goto]⟩
  | subnegotiation =>
    obtain ⟨same_local, same_remote, same_state, room⟩ := pushSubnegotiation_unnegotiated n byte
    simp only [telnetTransducer, filterByte, start, state]
    split_ifs
    · exact ⟨rfl, rfl, rfl, by simp [goto, replied], id, by simp [goto]⟩
    · exact ⟨by simp, same_local, same_remote, by simp [replied], fun _ => room,
        by simp [same_state, state]⟩
  | subnegotiationIac =>
    obtain ⟨same_local, same_remote, same_state, room⟩ :=
      pushSubnegotiation_unnegotiated n telnetIac
    obtain ⟨more_local, more_remote, more_state, more_room⟩ :=
      pushSubnegotiation_unnegotiated (n.pushSubnegotiation telnetIac) byte
    simp only [telnetTransducer, filterByte, start, state]
    split_ifs with ended overflow
    · exact ⟨rfl, rfl, rfl, by simp [overflow, replied], by simp, by simp⟩
    · refine ⟨rfl, rfl, rfl, fun message mem => ?_, by simp, by simp⟩
      have answer : telnetSubnegotiationReply n.subnegotiation n.runtime.terminalType =
          some message := by simpa [overflow] using mem
      exact telnetSubnegotiationReply_isSubnegotiation answer
    · exact ⟨by simp, same_local, same_remote, by simp [replied], fun _ => room, by simp⟩
    · exact ⟨by simp, more_local.trans same_local, more_remote.trans same_remote,
        by simp [replied], fun _ => more_room, by simp⟩

/-- What holds of a negotiator that sent these replies. -/
structure Negotiated (n : TelnetNegotiator) (replies : List (List UInt8)) : Prop where
  enabled_iff : ∀ side option, n.options side option = true ↔
    lastAnswer side option replies = some (requestVerb side.flip true)
  localBinary : n.runtime.localBinary = n.localOptions telnetOptBinary
  remoteBinary : n.runtime.remoteBinary = n.remoteOptions telnetOptBinary
  nawsNegotiated : n.runtime.nawsNegotiated = n.localOptions telnetOptNaws
  bounded : n.subnegotiation.length ≤ 4096
  verb : ∀ verb, n.state = .command verb → ∃ side enable, verb = requestVerb side enable

theorem negotiated_new (profile : TelnetProfile) :
    Negotiated (.new (.fromProfile profile)) [] where
  enabled_iff side option := by cases side <;> simp [TelnetNegotiator.options,
    new, lastAnswer]
  localBinary := rfl
  remoteBinary := rfl
  nawsNegotiated := rfl
  bounded := Nat.zero_le _
  verb _ state := nomatch state

variable {replies : List (List UInt8)}

theorem negotiated_of_unnegotiated (inv : Negotiated n replies)
    {next : TelnetNegotiator × List TelnetSignal} (quiet : Unnegotiated n next) :
    Negotiated next.1 (replies ++ replied next.2) where
  enabled_iff side option := by
    have same : next.1.options side option = n.options side option := by
      cases side <;> simp [TelnetNegotiator.options, quiet.localOptions, quiet.remoteOptions]
    rw [same, lastAnswer_append_subnegotiations quiet.replies]
    exact inv.enabled_iff side option
  localBinary := by rw [quiet.runtime, quiet.localOptions, inv.localBinary]
  remoteBinary := by rw [quiet.runtime, quiet.remoteOptions, inv.remoteBinary]
  nawsNegotiated := by rw [quiet.runtime, quiet.localOptions, inv.nawsNegotiated]
  bounded := quiet.bounded inv.bounded
  verb := quiet.verb

@[simp] theorem goto_options (n : TelnetNegotiator) (state : TelnetState) :
    TelnetNegotiator.options { n with state } = n.options := by
  funext side
  cases side <;> rfl

theorem answered_flags (inv : Negotiated n replies) (side : OptionSide) (option : UInt8)
    (enabled : Bool) :
    let n' := n.answered side option enabled
    n'.runtime.localBinary = n'.localOptions telnetOptBinary ∧
      n'.runtime.remoteBinary = n'.remoteOptions telnetOptBinary ∧
      n'.runtime.nawsNegotiated = n'.localOptions telnetOptNaws := by
  have apart : telnetOptBinary ≠ telnetOptNaws := by decide
  cases side with
  | ours =>
    simp only [TelnetNegotiator.answered, record, Function.update_apply,
      eq_comm (b := option)]
    split_ifs <;> simp_all [inv.localBinary, inv.remoteBinary, inv.nawsNegotiated]
  | theirs =>
    simp only [TelnetNegotiator.answered, record, Function.update_apply,
      eq_comm (b := option)]
    split_ifs <;> simp_all [inv.localBinary, inv.remoteBinary, inv.nawsNegotiated]

theorem negotiated_answered (inv : Negotiated n replies) (side : OptionSide) (option : UInt8)
    (enabled : Bool) :
    Negotiated { n.answered side option enabled with state := .data }
      (replies ++ [telnetIac, requestVerb side.flip enabled, option] ::
        nawsFollowUp n side option enabled) := by
  obtain ⟨localBinary, remoteBinary, nawsNegotiated⟩ := answered_flags inv side option enabled
  refine ⟨fun side' option' => ?_, localBinary, remoteBinary, nawsNegotiated,
    by simpa using inv.bounded, fun _ state => nomatch state⟩
  have followed : lastAnswer side' option'
      (replies ++ [telnetIac, requestVerb side.flip enabled, option] ::
        nawsFollowUp n side option enabled) =
      if side = side' ∧ option = option' then some (requestVerb side.flip enabled)
      else lastAnswer side' option' replies := by
    rw [← lastAnswer_append_reply, append_cons,
      lastAnswer_append_subnegotiations (fun _ => nawsFollowUp_isSubnegotiation)]
  have options : TelnetNegotiator.options { n.answered side option enabled with state := .data }
      side' option' = if side = side' ∧ option = option' then enabled
        else n.options side' option' := by
    simp only [goto_options, answered_options, eq_comm]
  rw [followed, options]
  split_ifs with same
  · obtain ⟨rfl, rfl⟩ := same
    cases side <;> cases enabled <;> decide
  · exact inv.enabled_iff side' option'

theorem negotiated_step (n : TelnetNegotiator) (replies : List (List UInt8)) (byte : UInt8)
    (inv : Negotiated n replies) :
    Negotiated (telnetTransducer.step n byte).1
      (replies ++ replied (telnetTransducer.step n byte).2) := by
  by_cases quiet : ∀ verb, n.state ≠ .command verb
  · exact negotiated_of_unnegotiated inv (step_unnegotiated quiet byte)
  obtain ⟨verb, state⟩ : ∃ verb, n.state = .command verb := by simpa using quiet
  obtain ⟨side, enable, rfl⟩ := inv.verb verb state
  rw [step_command state]
  split_ifs with inForce
  · exact ⟨by simpa [replied] using inv.enabled_iff, inv.localBinary, inv.remoteBinary,
      inv.nawsNegotiated, inv.bounded, fun _ state => nomatch state⟩
  · rw [replied_map_reply]
    exact negotiated_answered inv side byte (enable && n.runtime.accepts side byte)

theorem negotiated_run (inv : Negotiated n replies) (input : List UInt8) :
    Negotiated (telnetTransducer.run n input).1
      (replies ++ replied (telnetTransducer.run n input).2) := by
  induction input generalizing n replies with
  | nil => simpa [replied] using inv
  | cons byte input ih =>
    have next := ih (negotiated_step n replies byte inv)
    simpa [append_assoc] using next

theorem negotiated_filter (profile : TelnetProfile) (input : List UInt8) :
    Negotiated ((new (.fromProfile profile)).filter input).1
      ((new (.fromProfile profile)).filter input).2.2 := by
  rw [filter_eq_run]
  exact negotiated_run (negotiated_new profile) input

theorem request_in_force_unanswered {enable : Bool}
    (state : n.state = .command (requestVerb side enable)) {option : UInt8}
    (inForce : n.options side option = enable) : (n.filter [option]).2 = ([], []) := by
  simp [filter_eq_run, step_command state, inForce, displayed, replied]

end PortMate
