import Mathlib.Data.List.Induction
import PortMate.Transducer

namespace PortMate

inductive SyncInputOrigin
  | interactive
  | atomic
  | command
  deriving DecidableEq

/-- A missing option is the same as one that is off. The abort signal and the operation that
writes are named by numbers; a fence is checked only when it is present, and may be null. -/
structure TerminalInputSendOptions where
  awaitWrite : Bool := false
  binary : Bool := false
  sensitive : Bool := false
  signal : Option Nat := none
  executeWrite : Option Nat := none
  expectedConnectedSince : Option (Option String) := none
  expectedInputEpoch : Option (Option Nat) := none
  deriving DecidableEq

/-- The promise of one `enqueue` call. -/
structure InputWaiter where
  ticket : Nat
  propagateErrors : Bool

/-- `detachAbort` says that a listener waits for the item's signal. -/
structure PendingTerminalInput where
  sessionId : String
  text : List UInt16
  origin : SyncInputOrigin
  options : TerminalInputSendOptions
  detachAbort : Bool := false
  waiters : List InputWaiter

structure OrderedFlight where
  call : Nat
  item : PendingTerminalInput
  settled : Bool := false
  failed : Bool := false

def maxFastInFlight : Nat := 1
def maxOrderedInFlight : Nat := 8
def maxPipelinedTextCharacters : Nat := 4096

def canPipelineTerminalInput (text : List UInt16) (origin : SyncInputOrigin)
    (options : TerminalInputSendOptions) : Bool :=
  origin ≠ .command && !options.awaitWrite && !options.binary && options.signal.isNone &&
    options.executeWrite.isNone && text.length ≤ maxPipelinedTextCharacters

/-- What the pump does to the world: a send (or the operation that stands for it), the end of a
send, and the outcome of a promise. -/
inductive PumpSignal
  | sent (call : Nat) (item : PendingTerminalInput)
  | completed (call : Nat)
  | resolved (ticket : Nat)
  | rejected (ticket : Nat)

/-- `calls` are the sends of the pipeline that have not come back, `active` is the barrier that
has not, with whether its signal kept it from being sent, and `microtasks` are the queued
flushes. `aborted` are the signals that have fired. -/
structure TerminalInputPump where
  pending : List PendingTerminalInput := []
  active : Option (Nat × PendingTerminalInput × Bool) := none
  fastInFlightCount : Nat := 0
  fastFlushQueued : Bool := false
  fastFlushGeneration : Nat := 0
  orderedFlights : List OrderedFlight := []
  launches : Nat := 0
  calls : List (Nat × PendingTerminalInput) := []
  microtasks : List Nat := []
  aborted : List Nat := []

namespace TerminalInputPump

def resolveWaiters (item : PendingTerminalInput) (failed : Bool) : List PumpSignal :=
  item.waiters.map fun waiter =>
    if failed && waiter.propagateErrors then .rejected waiter.ticket else .resolved waiter.ticket

def window (orderedPipeline : Bool) : Nat :=
  if orderedPipeline then maxOrderedInFlight else maxFastInFlight

/-- The items that share the window; every other item is a barrier. -/
def pipelines (orderedPipeline : Bool) (next : PendingTerminalInput) : Bool :=
  if orderedPipeline then canPipelineTerminalInput next.text next.origin next.options
  else next.origin = .interactive && next.waiters.isEmpty && next.options.executeWrite.isNone

def launchFast (orderedPipeline : Bool) (pump : TerminalInputPump) (item : PendingTerminalInput) :
    TerminalInputPump :=
  { pump with
    fastInFlightCount := pump.fastInFlightCount + 1
    orderedFlights := if orderedPipeline then
        pump.orderedFlights ++ [{ call := pump.launches, item := item }]
      else pump.orderedFlights
    launches := pump.launches + 1
    calls := pump.calls ++ [(pump.launches, item)] }

def signalAborted (pump : TerminalInputPump) (options : TerminalInputSendOptions) : Bool :=
  match options.signal with
  | none => false
  | some signal => pump.aborted.contains signal

def launchOrdered (pump : TerminalInputPump) (next : PendingTerminalInput) :
    TerminalInputPump × List PumpSignal :=
  let refused := pump.signalAborted next.options
  ({ pump with
    active := some (pump.launches, next, refused)
    launches := pump.launches + 1 },
   if refused then [] else [.sent pump.launches next])

/-- The loop of `drain`; the list is the pump's own `pending`. -/
def admitNext (orderedPipeline : Bool) :
    List PendingTerminalInput → TerminalInputPump → TerminalInputPump × List PumpSignal
  | [], pump => (pump, [])
  | next :: rest, pump =>
    if pump.fastInFlightCount < window orderedPipeline then
      if pipelines orderedPipeline next then
        let (after, signals) := admitNext orderedPipeline rest
          ({ pump with pending := rest }.launchFast orderedPipeline next)
        (after, .sent pump.launches next :: signals)
      else if 0 < pump.fastInFlightCount then (pump, [])
      else { pump with pending := rest }.launchOrdered next
    else (pump, [])

def drain (orderedPipeline : Bool) (pump : TerminalInputPump) :
    TerminalInputPump × List PumpSignal :=
  if pump.active.isSome then (pump, [])
  else if pump.fastFlushQueued then (pump, [])
  else admitNext orderedPipeline pump.pending pump

def scheduleFastDrain (pump : TerminalInputPump) : TerminalInputPump :=
  if pump.fastFlushQueued then pump
  else { pump with
    fastFlushQueued := true
    fastFlushGeneration := pump.fastFlushGeneration + 1
    microtasks := pump.microtasks ++ [pump.fastFlushGeneration + 1] }

def cancelFastDrain (pump : TerminalInputPump) : TerminalInputPump :=
  { pump with
    fastFlushGeneration := pump.fastFlushGeneration + 1
    fastFlushQueued := false }

/-- The neighbours that become one entry: session, kind and the two flags are compared. -/
def coalesces (orderedPipeline : Bool) (tail item : PendingTerminalInput) : Bool :=
  item.origin = .interactive && tail.origin = .interactive && tail.sessionId = item.sessionId &&
    !item.options.awaitWrite && !tail.options.awaitWrite &&
    item.options.signal.isNone && tail.options.signal.isNone &&
    item.options.executeWrite.isNone && tail.options.executeWrite.isNone &&
    item.options.binary = tail.options.binary &&
    item.options.sensitive = tail.options.sensitive &&
    (!orderedPipeline || tail.text.length + item.text.length ≤ maxPipelinedTextCharacters)

def merge (tail item : PendingTerminalInput) : PendingTerminalInput :=
  { tail with text := tail.text ++ item.text, waiters := tail.waiters ++ item.waiters }

def push (orderedPipeline : Bool) (pending : List PendingTerminalInput)
    (item : PendingTerminalInput) : List PendingTerminalInput :=
  match pending.getLast? with
  | none => [item]
  | some tail =>
    if coalesces orderedPipeline tail item then pending.dropLast ++ [merge tail item]
    else pending ++ [item]

def enqueue (orderedPipeline : Bool) (pump : TerminalInputPump) (ticket : Nat) (sessionId : String)
    (text : List UInt16) (origin : SyncInputOrigin) (options : TerminalInputSendOptions) :
    TerminalInputPump × List PumpSignal :=
  if pump.signalAborted options then (pump, [.rejected ticket])
  else if sessionId = "" ∨ text = [] then (pump, [.resolved ticket])
  else
    let waiter : InputWaiter :=
      { ticket, propagateErrors :=
          options.awaitWrite || options.signal.isSome || options.executeWrite.isSome }
    let item := { sessionId, text, origin, options, detachAbort := options.signal.isSome,
                  waiters := [waiter] }
    { pump with pending := push orderedPipeline pump.pending item }.cancelFastDrain.drain
      orderedPipeline

/-- The promise named by `ticket` is only made for what is not interactive. -/
def enqueueFast (orderedPipeline : Bool) (pump : TerminalInputPump) (ticket : Nat)
    (sessionId : String) (text : List UInt16) (origin : SyncInputOrigin)
    (options : TerminalInputSendOptions) : TerminalInputPump × List PumpSignal :=
  if sessionId = "" ∨ text = [] then (pump, [])
  else if origin ≠ .interactive then
    pump.enqueue orderedPipeline ticket sessionId text origin options
  else
    let item := { sessionId, text, origin, options, waiters := [] }
    ({ pump with pending := push orderedPipeline pump.pending item }.scheduleFastDrain, [])

def settleFlight (call : Nat) (failed : Bool) (flight : OrderedFlight) : OrderedFlight :=
  if flight.call = call then { flight with settled := true, failed } else flight

/-- A send of the pipeline comes back: with ordering, the window slides over the settled flights
at its front. -/
def settleFast (orderedPipeline : Bool) (pump : TerminalInputPump) (call : Nat) (failed : Bool) :
    TerminalInputPump × List PumpSignal :=
  match pump.calls.lookup call with
  | none => (pump, [])
  | some item =>
    let pump := { pump with calls := pump.calls.filter fun entry => entry.1 ≠ call }
    if orderedPipeline then
      let flights := pump.orderedFlights.map (settleFlight call failed)
      let completed := flights.takeWhile (·.settled)
      let after := { pump with
        orderedFlights := flights.dropWhile (·.settled)
        fastInFlightCount := pump.fastInFlightCount - completed.length }
      let (drained, signals) := after.drain orderedPipeline
      (drained, .completed call ::
        completed.flatMap (fun flight => resolveWaiters flight.item flight.failed) ++ signals)
    else
      let after := { pump with fastInFlightCount := pump.fastInFlightCount - 1 }
      let (drained, signals) :=
        if after.fastInFlightCount = 0 then
          let hasAtomicBoundary := after.pending.any fun item => item.origin ≠ .interactive
          match after.pending.head? with
          | none => after.drain orderedPipeline
          | some next =>
            if next.origin = .interactive ∧ next.waiters.isEmpty ∧ !hasAtomicBoundary then
              after.scheduleFastDrain.drain orderedPipeline
            else after.drain orderedPipeline
        else (after, [])
      (drained, .completed call :: resolveWaiters item failed ++ signals)

/-- The barrier comes back; one whose signal had fired was never sent and fails. -/
def settleOrdered (orderedPipeline : Bool) (pump : TerminalInputPump) (failed : Bool) :
    TerminalInputPump × List PumpSignal :=
  match pump.active with
  | none => (pump, [])
  | some (call, item, refused) =>
    let (drained, signals) := { pump with active := none }.drain orderedPipeline
    (drained, .completed call :: resolveWaiters item (failed || refused) ++ signals)

/-- A queued flush runs; one of an earlier generation does nothing. -/
def flush (orderedPipeline : Bool) (pump : TerminalInputPump) (generation : Nat) :
    TerminalInputPump × List PumpSignal :=
  if pump.microtasks.contains generation then
    let pump := { pump with microtasks := pump.microtasks.erase generation }
    if generation ≠ pump.fastFlushGeneration then (pump, [])
    else { pump with fastFlushQueued := false }.drain orderedPipeline
  else (pump, [])

/-- The listeners of a signal that fires, in the order in which they were added; `fuel` bounds
their number. -/
def abortPending (orderedPipeline : Bool) (signal : Nat) :
    Nat → TerminalInputPump → TerminalInputPump × List PumpSignal
  | 0, pump => (pump, [])
  | fuel + 1, pump =>
    match pump.pending.find? fun item => item.detachAbort && item.options.signal = some signal with
    | none => (pump, [])
    | some item =>
      let removed := { pump with
        pending := pump.pending.eraseP fun item =>
          item.detachAbort && item.options.signal = some signal }
      let (drained, signals) := removed.drain orderedPipeline
      let (after, rest) := abortPending orderedPipeline signal fuel drained
      (after, resolveWaiters item true ++ signals ++ rest)

def abort (orderedPipeline : Bool) (pump : TerminalInputPump) (signal : Nat) :
    TerminalInputPump × List PumpSignal :=
  if pump.aborted.contains signal then (pump, [])
  else { pump with aborted := signal :: pump.aborted }.abortPending orderedPipeline signal
    pump.pending.length

def reset (pump : TerminalInputPump) : TerminalInputPump × List PumpSignal :=
  ({ pump.cancelFastDrain with pending := [] },
   pump.pending.flatMap fun item => resolveWaiters item true)

end TerminalInputPump

inductive PumpEvent
  | enqueue (ticket : Nat) (sessionId : String) (text : List UInt16) (origin : SyncInputOrigin)
      (options : TerminalInputSendOptions)
  | enqueueFast (ticket : Nat) (sessionId : String) (text : List UInt16)
      (origin : SyncInputOrigin) (options : TerminalInputSendOptions)
  | microtask (generation : Nat)
  | settled (call : Nat) (failed : Bool)
  | orderedSettled (failed : Bool)
  | abort (signal : Nat)
  | reset

def terminalInputPump (orderedPipeline : Bool) :
    Transducer TerminalInputPump PumpEvent PumpSignal where
  step pump
    | .enqueue ticket sessionId text origin options =>
      pump.enqueue orderedPipeline ticket sessionId text origin options
    | .enqueueFast ticket sessionId text origin options =>
      pump.enqueueFast orderedPipeline ticket sessionId text origin options
    | .microtask generation => pump.flush orderedPipeline generation
    | .settled call failed => pump.settleFast orderedPipeline call failed
    | .orderedSettled failed => pump.settleOrdered orderedPipeline failed
    | .abort signal => pump.abort orderedPipeline signal
    | .reset => pump.reset

namespace TerminalInputPump

variable {orderedPipeline : Bool}

theorem drain_preserves (Inv : TerminalInputPump → List PumpSignal → Prop)
    (fast : ∀ pump log next rest, Inv pump log → pump.pending = next :: rest →
      pump.active = none → pump.fastInFlightCount < window orderedPipeline →
      pipelines orderedPipeline next = true →
      Inv ({ pump with pending := rest }.launchFast orderedPipeline next)
        (log ++ [.sent pump.launches next]))
    (barrier : ∀ pump log next rest, Inv pump log → pump.pending = next :: rest →
      pump.active = none → pump.fastInFlightCount = 0 →
      pipelines orderedPipeline next = false →
      Inv ({ pump with pending := rest }.launchOrdered next).1
        (log ++ ({ pump with pending := rest }.launchOrdered next).2))
    (pump : TerminalInputPump) (log : List PumpSignal) (start : Inv pump log) :
    Inv (pump.drain orderedPipeline).1 (log ++ (pump.drain orderedPipeline).2) := by
  have loop : ∀ (items : List PendingTerminalInput) (pump : TerminalInputPump)
      (log : List PumpSignal), Inv pump log → pump.pending = items → pump.active = none →
      Inv (admitNext orderedPipeline items pump).1
        (log ++ (admitNext orderedPipeline items pump).2) := by
    intro items
    induction items with
    | nil =>
      intro pump log start _ _
      simpa [admitNext] using start
    | cons next rest ih =>
      intro pump log start queued idle
      rw [admitNext]
      split
      next room =>
        split
        next pipelined =>
          have launched := fast pump log next rest start queued idle room pipelined
          have rest := ih _ _ launched rfl idle
          simpa [List.append_assoc] using rest
        next pipelined =>
          split
          next => simpa using start
          next empty =>
            exact barrier pump log next rest start queued idle (by omega) (by simpa using pipelined)
      next => simpa using start
  unfold drain
  split
  · simpa using start
  · split
    · simpa using start
    · next idle _ => exact loop pump.pending pump log start rfl (by simpa using idle)

theorem drain_awake (pump : TerminalInputPump) :
    (pump.drain orderedPipeline).1.pending = [] ∨
      (pump.drain orderedPipeline).1.active.isSome = true ∨
      (pump.drain orderedPipeline).1.fastFlushQueued = true ∨
      0 < (pump.drain orderedPipeline).1.fastInFlightCount := by
  have loop : ∀ (items : List PendingTerminalInput) (pump : TerminalInputPump),
      pump.pending = items →
      (admitNext orderedPipeline items pump).1.pending = [] ∨
        (admitNext orderedPipeline items pump).1.active.isSome = true ∨
        0 < (admitNext orderedPipeline items pump).1.fastInFlightCount := by
    intro items
    induction items with
    | nil => exact fun pump queued => .inl queued
    | cons next rest ih =>
      intro pump queued
      rw [admitNext]
      split
      next room =>
        split
        · exact ih _ rfl
        · split
          next busy => exact .inr (.inr busy)
          next => exact .inr (.inl rfl)
      next full =>
        have room : 0 < window orderedPipeline := by cases orderedPipeline <;> decide
        have busy : 0 < pump.fastInFlightCount := by omega
        exact .inr (.inr busy)
  unfold drain
  split
  · next busy => exact .inr (.inl busy)
  · split
    · next queued => exact .inr (.inr (.inl queued))
    · obtain done | busy | busy := loop pump.pending pump rfl
      · exact .inl done
      · exact .inr (.inl busy)
      · exact .inr (.inr (.inr busy))

end TerminalInputPump

end PortMate
