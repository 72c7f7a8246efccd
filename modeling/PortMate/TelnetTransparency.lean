import PortMate.TelnetFilter

namespace PortMate

open TelnetSignal TelnetNegotiator

/-- What an NVT receiver displays: the NUL after a CR is padding. -/
def stripCrNul : Bool → List UInt8 → List UInt8
  | _, [] => []
  | afterCr, byte :: bytes =>
    if afterCr ∧ byte = 0 then stripCrNul false bytes
    else byte :: stripCrNul (decide (byte = 13)) bytes

/-- A NUL directly follows a CR; `afterCr` tells whether a CR precedes the bytes. -/
def hasCrNul : Bool → List UInt8 → Bool
  | _, [] => false
  | afterCr, byte :: bytes =>
    (afterCr && decide (byte = 0)) || hasCrNul (decide (byte = 13)) bytes

theorem stripCrNul_length_le (afterCr : Bool) (bytes : List UInt8) :
    (stripCrNul afterCr bytes).length ≤ bytes.length := by
  induction bytes generalizing afterCr with
  | nil => simp [stripCrNul]
  | cons byte bytes ih =>
    unfold stripCrNul
    split_ifs
    · exact Nat.le_succ_of_le (ih false)
    · simpa using ih _

theorem stripCrNul_eq_self_iff (afterCr : Bool) (bytes : List UInt8) :
    stripCrNul afterCr bytes = bytes ↔ hasCrNul afterCr bytes = false := by
  induction bytes generalizing afterCr with
  | nil => simp [stripCrNul, hasCrNul]
  | cons byte bytes ih =>
    by_cases padding : afterCr = true ∧ byte = 0
    · have shorter := stripCrNul_length_le false bytes
      have differs : stripCrNul false bytes ≠ byte :: bytes := by
        intro same
        have := congrArg List.length same
        simp only [List.length_cons] at this
        omega
      simp [stripCrNul, hasCrNul, padding, show stripCrNul false bytes ≠ 0 :: bytes from
        padding.2 ▸ differs]
    · have kept : (afterCr && decide (byte = 0)) = false := by
        simpa using fun h => not_and.mp padding h
      simp [stripCrNul, hasCrNul, padding, kept, ih]

theorem run_escapeIac {n : TelnetNegotiator} (data : n.state = .data) (byte : UInt8) :
    telnetTransducer.run n (escapeIac byte) =
      ({ (n.pushDataByte byte [] n.runtime.remoteBinary).1 with state := .data },
        (n.pushDataByte byte [] n.runtime.remoteBinary).2.map .display) := by
  by_cases escaped : byte = telnetIac
  · subst escaped
    simp [escapeIac, step_data_iac data, step_iac_iac, pushDataByte_goto]
  · have stays : (n.pushDataByte byte [] n.runtime.remoteBinary).1.state = .data := by simp [data]
    simp only [escapeIac, if_neg escaped, Transducer.run_cons, Transducer.run_nil,
      step_data_byte data escaped, List.append_nil]
    rw [← stays]

theorem run_encoded {n : TelnetNegotiator} (data : n.state = .data) (payload : List UInt8) :
    (telnetTransducer.run n (encodeTelnetOutboundBytes payload)).2 =
      (if n.runtime.remoteBinary then payload else stripCrNul n.afterCr payload).map .display := by
  rw [encodeTelnetOutboundBytes_eq_flatMap]
  induction payload generalizing n with
  | nil => simp [stripCrNul]
  | cons byte payload ih =>
    rw [List.flatMap_cons, Transducer.run_append, run_escapeIac data]
    simp only
    rw [ih rfl]
    by_cases binary : n.runtime.remoteBinary = true
    · simp [pushDataByte, binary]
    · by_cases padding : n.afterCr = true ∧ byte = 0
      · simp [pushDataByte, binary, padding, stripCrNul]
      · simp [pushDataByte, binary, padding, stripCrNul]

theorem filter_encoded {n : TelnetNegotiator} (data : n.state = .data) (payload : List UInt8) :
    (n.filter (encodeTelnetOutboundBytes payload)).2 =
      (if n.runtime.remoteBinary then payload else stripCrNul n.afterCr payload, []) := by
  simp [filter_eq_run, run_encoded data]

theorem outbound_bytes_transparent_iff (n : TelnetNegotiator) (data : n.state = .data)
    (payload : List UInt8) :
    (n.filter (encodeTelnetOutboundBytes payload)).2 = (payload, []) ↔
      n.runtime.remoteBinary = true ∨ hasCrNul n.afterCr payload = false := by
  rw [filter_encoded data, ← stripCrNul_eq_self_iff]
  by_cases binary : n.runtime.remoteBinary = true <;> simp [binary]

def nvtPeer : TelnetNegotiator :=
  .new (.fromProfile ⟨true, true, 80, 24, "xterm-256color"⟩)

theorem nvtPeer_recovers_cr_and_iac :
    (nvtPeer.filter (encodeTelnetOutboundBytes [65, 13, 255, 10])).2 = ([65, 13, 255, 10], []) :=
  (outbound_bytes_transparent_iff nvtPeer rfl [65, 13, 255, 10]).mpr (Or.inr (by decide))

theorem nvtPeer_drops_nul_after_cr :
    (nvtPeer.filter (encodeTelnetOutboundBytes [13, 0])).2 ≠ ([13, 0], []) := by
  rw [filter_encoded rfl]
  decide

end PortMate
