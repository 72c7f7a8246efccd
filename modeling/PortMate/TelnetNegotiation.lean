import PortMate.TelnetFilter

namespace PortMate

open TelnetSignal Function

/-- Whose option a request is about, seen from the negotiator that receives it:
`ours` is asked for by DO and DONT, `theirs` is announced by WILL and WONT. -/
inductive OptionSide
  | ours
  | theirs
  deriving DecidableEq

def OptionSide.flip : OptionSide → OptionSide
  | .ours => .theirs
  | .theirs => .ours

variable (side : OptionSide)

@[simp] theorem OptionSide.flip_flip : side.flip.flip = side := by
  cases side <;> rfl

@[simp] theorem OptionSide.flip_inj {side side' : OptionSide} :
    side.flip = side'.flip ↔ side = side' := by
  cases side <;> cases side' <;> decide

def requestVerb : OptionSide → Bool → UInt8
  | .ours, true => telnetDo
  | .ours, false => telnetDont
  | .theirs, true => telnetWill
  | .theirs, false => telnetWont

variable (enable : Bool)

theorem requestVerb_is_verb :
    requestVerb side enable = telnetDo ∨ requestVerb side enable = telnetDont ∨
      requestVerb side enable = telnetWill ∨ requestVerb side enable = telnetWont := by
  cases side <;> cases enable <;> decide

theorem verb_is_requestVerb {verb : UInt8}
    (h : verb = telnetDo ∨ verb = telnetDont ∨ verb = telnetWill ∨ verb = telnetWont) :
    ∃ side enable, verb = requestVerb side enable := by
  rcases h with h | h | h | h
  · exact ⟨.ours, true, h⟩
  · exact ⟨.ours, false, h⟩
  · exact ⟨.theirs, true, h⟩
  · exact ⟨.theirs, false, h⟩

def TelnetNegotiator.options (n : TelnetNegotiator) : OptionSide → UInt8 → Bool
  | .ours => n.localOptions
  | .theirs => n.remoteOptions

open TelnetNegotiator

/-- The requests to enable an option that are granted. -/
def TelnetRuntimeState.accepts (runtime : TelnetRuntimeState) : OptionSide → UInt8 → Bool
  | .ours, option =>
    if option = telnetOptBinary then runtime.binaryEnabled
    else if option = telnetOptNaws then runtime.nawsEnabled
    else decide (option = telnetOptSuppressGoAhead ∨ option = telnetOptTerminalType)
  | .theirs, option =>
    if option = telnetOptBinary then runtime.binaryEnabled
    else decide (option = telnetOptEcho ∨ option = telnetOptSuppressGoAhead)

open TelnetRuntimeState

def TelnetRuntimeState.record (runtime : TelnetRuntimeState) :
    OptionSide → UInt8 → Bool → TelnetRuntimeState
  | .ours, option, enabled =>
    if option = telnetOptBinary then { runtime with localBinary := enabled }
    else if option = telnetOptNaws then { runtime with nawsNegotiated := enabled }
    else runtime
  | .theirs, option, enabled =>
    if option = telnetOptBinary then { runtime with remoteBinary := enabled } else runtime

variable (runtime : TelnetRuntimeState)

@[simp] theorem TelnetRuntimeState.record_binaryEnabled (side : OptionSide) (option : UInt8)
    (enabled : Bool) :
    (runtime.record side option enabled).binaryEnabled = runtime.binaryEnabled := by
  cases side <;> simp only [record] <;> split_ifs <;> rfl

@[simp] theorem TelnetRuntimeState.record_nawsEnabled (side : OptionSide) (option : UInt8)
    (enabled : Bool) : (runtime.record side option enabled).nawsEnabled = runtime.nawsEnabled := by
  cases side <;> simp only [record] <;> split_ifs <;> rfl

@[simp] theorem TelnetRuntimeState.record_cols (side : OptionSide) (option : UInt8) (enabled : Bool) :
    (runtime.record side option enabled).cols = runtime.cols := by
  cases side <;> simp only [record] <;> split_ifs <;> rfl

@[simp] theorem TelnetRuntimeState.record_rows (side : OptionSide) (option : UInt8) (enabled : Bool) :
    (runtime.record side option enabled).rows = runtime.rows := by
  cases side <;> simp only [record] <;> split_ifs <;> rfl

@[simp] theorem TelnetRuntimeState.record_accepts (side : OptionSide) (option : UInt8)
    (enabled : Bool) : (runtime.record side option enabled).accepts = runtime.accepts := by
  funext side' option'
  cases side' <;> simp [accepts]

def TelnetNegotiator.answered (n : TelnetNegotiator) (side : OptionSide) (option : UInt8)
    (enabled : Bool) : TelnetNegotiator :=
  match side with
  | .ours =>
    { n with
      runtime := n.runtime.record .ours option enabled
      localOptions := update n.localOptions option enabled }
  | .theirs =>
    { n with
      runtime := n.runtime.record .theirs option enabled
      remoteOptions := update n.remoteOptions option enabled }

variable (n : TelnetNegotiator)

theorem answered_options (side : OptionSide) (option : UInt8) (enabled : Bool) (side' : OptionSide)
    (option' : UInt8) :
    (n.answered side option enabled).options side' option' =
      if side' = side ∧ option' = option then enabled else n.options side' option' := by
  cases side <;> cases side' <;>
    simp [answered, options, update_apply]

@[simp] theorem answered_accepts (side : OptionSide) (option : UInt8) (enabled : Bool) :
    (n.answered side option enabled).runtime.accepts = n.runtime.accepts := by
  cases side <;> simp [answered]

@[simp] theorem answered_subnegotiation (side : OptionSide) (option : UInt8) (enabled : Bool) :
    (n.answered side option enabled).subnegotiation = n.subnegotiation := by
  cases side <;> rfl

theorem telnetOptionResponse_request (option : UInt8) (runtime : TelnetRuntimeState) :
    telnetOptionResponse (requestVerb side enable) option runtime =
      (requestVerb side.flip (enable && runtime.accepts side option),
        runtime.record side option (enable && runtime.accepts side option)) := by
  obtain ⟨binaryEnabled, nawsEnabled, localBinary, remoteBinary, naws, cols, rows, term⟩ := runtime
  by_cases binary : option = telnetOptBinary
  · subst binary
    cases side <;> cases enable <;> cases binaryEnabled <;> rfl
  by_cases isNaws : option = telnetOptNaws
  · subst isNaws
    cases side <;> cases enable <;> cases nawsEnabled <;> rfl
  by_cases goAhead : option = telnetOptSuppressGoAhead
  · subst goAhead
    cases side <;> cases enable <;> rfl
  by_cases terminal : option = telnetOptTerminalType
  · subst terminal
    cases side <;> cases enable <;> rfl
  by_cases echo : option = telnetOptEcho
  · subst echo
    cases side <;> cases enable <;> rfl
  cases side <;> cases enable <;>
    simp [telnetOptionResponse, requestVerb, OptionSide.flip, TelnetRuntimeState.accepts,
      TelnetRuntimeState.record, binary, isNaws, goAhead, terminal, echo, telnetDo, telnetDont,
      telnetWill, telnetWont]

/-- Accepting DO NAWS is followed by the window size. -/
def nawsFollowUp (n : TelnetNegotiator) (side : OptionSide) (option : UInt8) (enabled : Bool) :
    List (List UInt8) :=
  if side = .ours ∧ option = telnetOptNaws ∧ enabled then
    [telnetNawsMessage n.runtime.cols n.runtime.rows]
  else []

theorem requestVerb_enables :
    decide (requestVerb side enable = telnetDo ∨ requestVerb side enable = telnetWill) = enable := by
  cases side <;> cases enable <;> rfl

theorem requestVerb_flip_enables :
    decide (requestVerb side.flip enable = telnetWill ∨ requestVerb side.flip enable = telnetDo) =
      enable := by
  cases side <;> cases enable <;> rfl

theorem telnetOptionReplies_request (option : UInt8) (n : TelnetNegotiator) :
    telnetOptionReplies (requestVerb side enable) option n =
      if n.options side option = enable then (n, [])
      else
        (n.answered side option (enable && n.runtime.accepts side option),
          [telnetIac, requestVerb side.flip (enable && n.runtime.accepts side option), option] ::
            nawsFollowUp n side option (enable && n.runtime.accepts side option)) := by
  have response := telnetOptionResponse_request side enable option n.runtime
  have enables := requestVerb_enables side enable
  have grants := requestVerb_flip_enables side (enable && n.runtime.accepts side option)
  have unrefused : ¬(¬(requestVerb side enable = telnetDo ∨ requestVerb side enable = telnetDont) ∧
      ¬(requestVerb side enable = telnetWill ∨ requestVerb side enable = telnetWont)) := by
    cases side <;> cases enable <;> decide
  unfold telnetOptionReplies
  simp only [if_neg unrefused, enables, response, grants]
  cases side with
  | ours =>
    have isLocal : requestVerb .ours enable = telnetDo ∨ requestVerb .ours enable = telnetDont := by
      cases enable <;> decide
    simp only [if_pos isLocal, options]
    by_cases inForce : n.localOptions option = enable
    · simp [inForce]
    · have sized (granted : Bool) (implied : granted = true → enable = true) :
          (requestVerb .ours enable = telnetDo ∧ option = telnetOptNaws ∧
            requestVerb OptionSide.ours.flip granted = telnetWill) ↔
          (OptionSide.ours = .ours ∧ option = telnetOptNaws ∧ granted = true) := by
        cases granted <;> cases enable <;>
          simp_all [requestVerb, OptionSide.flip, telnetDo, telnetDont, telnetWill, telnetWont]
      simp only [if_neg inForce, if_neg (Ne.symm inForce), answered, nawsFollowUp,
        sized _ (fun granted => (Bool.and_eq_true_iff.mp granted).1), record_cols,
        record_rows]
      split_ifs <;> rfl
  | theirs =>
    have isRemote : ¬(requestVerb .theirs enable = telnetDo ∨
        requestVerb .theirs enable = telnetDont) := by
      cases enable <;> decide
    simp only [if_neg isRemote, options]
    by_cases inForce : n.remoteOptions option = enable
    · simp [inForce]
    · have silent : requestVerb .theirs enable ≠ telnetDo := fun h => isRemote (Or.inl h)
      simp [inForce, Ne.symm inForce, silent, answered, nawsFollowUp]

end PortMate
