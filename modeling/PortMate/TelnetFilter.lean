import PortMate.TelnetProtocol

namespace PortMate

open List

def escapeIac (byte : UInt8) : List UInt8 :=
  if byte = telnetIac then [byte, byte] else [byte]

theorem appendTelnetSubnegotiationPayload_eq (output payload : List UInt8) :
    appendTelnetSubnegotiationPayload output payload = output ++ payload.flatMap escapeIac := by
  unfold appendTelnetSubnegotiationPayload
  induction payload generalizing output with
  | nil => simp
  | cons byte payload ih =>
    rw [foldl_cons, ih, flatMap_cons]
    by_cases escaped : byte = telnetIac <;> simp [escapeIac, escaped]

theorem encodeTelnetOutboundBytes_eq_flatMap (bytes : List UInt8) :
    encodeTelnetOutboundBytes bytes = bytes.flatMap escapeIac :=
  appendTelnetSubnegotiationPayload_eq [] bytes

/-- What the filter hands on for one input byte. -/
inductive TelnetSignal
  | display (byte : UInt8)
  | reply (message : List UInt8)

def TelnetSignal.displayed : List TelnetSignal → List UInt8
  | [] => []
  | .display byte :: signals => byte :: displayed signals
  | .reply _ :: signals => displayed signals

def TelnetSignal.replied : List TelnetSignal → List (List UInt8)
  | [] => []
  | .display _ :: signals => replied signals
  | .reply message :: signals => message :: replied signals

namespace TelnetSignal

variable (xs ys : List TelnetSignal)

@[simp] theorem displayed_append : displayed (xs ++ ys) = displayed xs ++ displayed ys := by
  induction xs with
  | nil => rfl
  | cons x xs ih => cases x <;> simp [displayed, ih]

@[simp] theorem replied_append : replied (xs ++ ys) = replied xs ++ replied ys := by
  induction xs with
  | nil => rfl
  | cons x xs ih => cases x <;> simp [replied, ih]

@[simp] theorem displayed_map_display (bytes : List UInt8) :
    displayed (bytes.map .display) = bytes := by
  induction bytes with
  | nil => rfl
  | cons byte bytes ih => simp [displayed, ih]

variable (messages : List (List UInt8))

@[simp] theorem displayed_map_reply : displayed (messages.map .reply) = [] := by
  induction messages with
  | nil => rfl
  | cons message messages ih => simpa [displayed] using ih

@[simp] theorem replied_map_display (bytes : List UInt8) :
    replied (bytes.map .display) = [] := by
  induction bytes with
  | nil => rfl
  | cons byte bytes ih => simpa [replied] using ih

@[simp] theorem replied_map_reply : replied (messages.map .reply) = messages := by
  induction messages with
  | nil => rfl
  | cons message messages ih => simp [replied, ih]

end TelnetSignal

open TelnetSignal

/-- The state of the filter between two bytes is the negotiator alone: the loop's
copy of the binary flag is refreshed whenever the flag can change. -/
def FilterLoop.start (n : TelnetNegotiator) : FilterLoop := ⟨n, [], [], n.runtime.remoteBinary⟩

open FilterLoop

def telnetTransducer : Transducer TelnetNegotiator UInt8 TelnetSignal where
  step n byte :=
    let loop := filterByte (.start n) byte
    (loop.negotiator, loop.output.map .display ++ loop.replies.map .reply)

variable (n : TelnetNegotiator)

@[simp] theorem FilterLoop.start_negotiator :
    (start n).negotiator = n := rfl

@[simp] theorem FilterLoop.start_output : (start n).output = [] :=
  rfl

@[simp] theorem FilterLoop.start_replies :
    (start n).replies = [] := rfl

@[simp] theorem FilterLoop.start_remoteBinary :
    (start n).remoteBinary = n.runtime.remoteBinary := rfl

variable (byte : UInt8)

theorem pushDataByte_output (output : List UInt8) (remoteBinary : Bool) :
    n.pushDataByte byte output remoteBinary =
      ((n.pushDataByte byte [] remoteBinary).1,
        output ++ (n.pushDataByte byte [] remoteBinary).2) := by
  unfold TelnetNegotiator.pushDataByte
  split_ifs <;> simp

@[simp] theorem pushDataByte_runtime (output : List UInt8) (remoteBinary : Bool) :
    (n.pushDataByte byte output remoteBinary).1.runtime = n.runtime := by
  unfold TelnetNegotiator.pushDataByte
  split_ifs <;> rfl

@[simp] theorem pushDataByte_state (output : List UInt8) (remoteBinary : Bool) :
    (n.pushDataByte byte output remoteBinary).1.state = n.state := by
  unfold TelnetNegotiator.pushDataByte
  split_ifs <;> rfl

theorem pushDataByte_goto (state : TelnetState) (byte : UInt8) (output : List UInt8)
    (remoteBinary : Bool) :
    { n with state }.pushDataByte byte output remoteBinary =
      ({ (n.pushDataByte byte output remoteBinary).1 with state },
        (n.pushDataByte byte output remoteBinary).2) := by
  unfold TelnetNegotiator.pushDataByte
  split_ifs <;> rfl

@[simp] theorem pushSubnegotiation_runtime : (n.pushSubnegotiation byte).runtime = n.runtime := by
  unfold TelnetNegotiator.pushSubnegotiation
  split_ifs <;> rfl

theorem filterByte_accumulates (loop : FilterLoop) (byte : UInt8)
    (current : loop.remoteBinary = loop.negotiator.runtime.remoteBinary) :
    filterByte loop byte =
      ⟨(filterByte (.start loop.negotiator) byte).negotiator,
        loop.output ++ (filterByte (.start loop.negotiator) byte).output,
        loop.replies ++ (filterByte (.start loop.negotiator) byte).replies,
        (filterByte (.start loop.negotiator) byte).negotiator.runtime.remoteBinary⟩ := by
  obtain ⟨n, output, replies, remoteBinary⟩ := loop
  simp only at current
  subst current
  have pushed := pushDataByte_output n byte output n.runtime.remoteBinary
  have pushedIac := pushDataByte_output n telnetIac output n.runtime.remoteBinary
  cases state : n.state with
  | data =>
    simp only [filterByte, start, state]
    split_ifs
    · simp [goto]
    · simp [pushData, pushed]
  | iac =>
    simp only [filterByte, start, state]
    split_ifs
    · simp [goto, pushData, pushedIac]
    · simp [goto]
    · simp
    · simp [goto]
  | command command => simp [filterByte, start, state]
  | subnegotiation =>
    simp only [filterByte, start, state]
    split_ifs
    · simp [goto]
    · simp
  | subnegotiationIac =>
    by_cases ended : byte = telnetSe
    · cases overflow : n.subnegotiationOverflow <;>
        simp [filterByte, start, state, ended, overflow]
    · simp only [filterByte, start, state, ended, ↓reduceIte]
      split_ifs <;> simp

theorem step_data_iac {n : TelnetNegotiator} (state : n.state = .data) :
    telnetTransducer.step n telnetIac = ({ n with state := .iac }, []) := by
  simp [telnetTransducer, filterByte, state, goto]

theorem step_data_byte {n : TelnetNegotiator} (state : n.state = .data) {byte : UInt8}
    (plain : byte ≠ telnetIac) :
    telnetTransducer.step n byte =
      ((n.pushDataByte byte [] n.runtime.remoteBinary).1,
        (n.pushDataByte byte [] n.runtime.remoteBinary).2.map .display) := by
  simp [telnetTransducer, filterByte, state, plain, pushData]

theorem step_iac_iac {n : TelnetNegotiator} (state : n.state = .iac) :
    telnetTransducer.step n telnetIac =
      ({ (n.pushDataByte telnetIac [] n.runtime.remoteBinary).1 with state := .data },
        (n.pushDataByte telnetIac [] n.runtime.remoteBinary).2.map .display) := by
  simp [telnetTransducer, filterByte, state, goto, pushData]

theorem foldl_filterByte_eq_run (input : List UInt8) (loop : FilterLoop)
    (current : loop.remoteBinary = loop.negotiator.runtime.remoteBinary) :
    input.foldl filterByte loop =
      ⟨(telnetTransducer.run loop.negotiator input).1,
        loop.output ++ displayed (telnetTransducer.run loop.negotiator input).2,
        loop.replies ++ replied (telnetTransducer.run loop.negotiator input).2,
        (telnetTransducer.run loop.negotiator input).1.runtime.remoteBinary⟩ := by
  induction input generalizing loop with
  | nil =>
    obtain ⟨n, output, replies, remoteBinary⟩ := loop
    simp only at current
    simp [displayed, replied, current]
  | cons byte input ih =>
    rw [foldl_cons, filterByte_accumulates loop byte current, ih _ rfl]
    simp [telnetTransducer, append_assoc]

theorem filter_eq_run (input : List UInt8) :
    n.filter input =
      ((telnetTransducer.run n input).1, displayed (telnetTransducer.run n input).2,
        replied (telnetTransducer.run n input).2) := by
  simp [TelnetNegotiator.filter,
    foldl_filterByte_eq_run input ⟨n, [], [], n.runtime.remoteBinary⟩ rfl]

theorem filter_append (n : TelnetNegotiator) (xs ys : List UInt8) :
    n.filter (xs ++ ys) =
      (((n.filter xs).1.filter ys).1, (n.filter xs).2.1 ++ ((n.filter xs).1.filter ys).2.1,
        (n.filter xs).2.2 ++ ((n.filter xs).1.filter ys).2.2) := by
  simp [filter_eq_run, Transducer.run_append]

/-- Feeding the pieces of a stream one after the other. -/
def TelnetNegotiator.filterChunks (n : TelnetNegotiator) :
    List (List UInt8) → TelnetNegotiator × List UInt8 × List (List UInt8)
  | [] => (n, [], [])
  | chunk :: chunks =>
    let (n, output, replies) := n.filter chunk
    let (n, moreOutput, moreReplies) := n.filterChunks chunks
    (n, output ++ moreOutput, replies ++ moreReplies)

theorem filterChunks_eq_runChunks (chunks : List (List UInt8)) :
    n.filterChunks chunks =
      ((telnetTransducer.runChunks n chunks).1,
        displayed (telnetTransducer.runChunks n chunks).2,
        replied (telnetTransducer.runChunks n chunks).2) := by
  induction chunks generalizing n with
  | nil => rfl
  | cons chunk chunks ih =>
    simp [TelnetNegotiator.filterChunks, Transducer.runChunks, filter_eq_run, ih]

theorem filterChunks_eq_filter_flatten (n : TelnetNegotiator) (chunks : List (List UInt8)) :
    n.filterChunks chunks = n.filter chunks.flatten := by
  rw [filterChunks_eq_runChunks, Transducer.runChunks_eq_run_flatten, filter_eq_run]

end PortMate
