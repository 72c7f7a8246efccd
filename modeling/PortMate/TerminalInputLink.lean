import Mathlib.Data.List.Perm.Subperm
import PortMate.OrderedInput
import PortMate.TerminalInputLane
import PortMate.Utf16

namespace PortMate

open List Function Nat OrderedInput

/-- One entry of the window's map of streams; `id` stands for the native stream bound to it. -/
structure TerminalInputStream where
  id : Nat
  epoch : Nat
  next : Nat := 0

/-- What a call of the pump carries across: the order `prepare` gave it, and its text. -/
structure NumberedSend where
  stream : Nat
  sequence : Nat
  epoch : Nat
  packet : InputPacket

/-- A pump with its ordered pipeline, the stream it numbers its calls in, and the native queues.
`answered` are the calls that some delivery answered with success. -/
structure TerminalInputLink where
  pump : TerminalInputPump := {}
  epoch : Nat := 0
  stream : Option TerminalInputStream := none
  opened : Nat := 0
  sends : Nat → Option NumberedSend := fun _ => none
  answered : List Nat := []
  native : Nat → OrderedInput := fun _ => {}

/-- `refuses` are the calls that throw before `prepare`; `enqueue` is what the transport's queue
answers. A delivery may come at any time and again. `replaced` is the registry's reset, after which
a fresh pump types into a fresh stream. -/
inductive LinkEvent
  | pump (event : PumpEvent) (refuses : Nat → Bool)
  | delivered (call : Nat) (enqueue : Nat → Except String Unit)
  | reconnected
  | streamReset
  | replaced

/-- The text of a call as the native side reads it: half a surrogate pair cannot be read, and at
most becomes the replacement character. -/
def inputPacketOf (item : PendingTerminalInput) : InputPacket :=
  { text := String.ofList (decodeUtf16 item.text)
    coalesce := item.origin = .interactive
    sensitive := item.options.sensitive }

def TerminalInputStream.order (stream : TerminalInputStream) (item : PendingTerminalInput) :
    NumberedSend :=
  { stream := stream.id, sequence := stream.next, epoch := stream.epoch,
    packet := inputPacketOf item }

namespace TerminalInputLink

/-- The stream of the present epoch, opened when there is none. -/
def openStream (link : TerminalInputLink) : TerminalInputLink :=
  match link.stream with
  | some stream =>
    if stream.epoch = link.epoch then link
    else { link with
      stream := some { id := link.opened, epoch := link.epoch }, opened := link.opened + 1 }
  | none => { link with
      stream := some { id := link.opened, epoch := link.epoch }, opened := link.opened + 1 }

def takeSequence (link : TerminalInputLink) (call : Nat) (item : PendingTerminalInput) :
    TerminalInputLink :=
  match link.stream with
  | none => link
  | some stream => { link with
      stream := some { stream with next := stream.next + 1 }
      sends := update link.sends call (some (stream.order item)) }

/-- The part of `send` that runs when the pump launches a call. -/
def number (refuses : Nat → Bool) (link : TerminalInputLink) : PumpSignal → TerminalInputLink
  | .sent call item =>
    if canPipelineTerminalInput item.text item.origin item.options && !refuses call then
      link.openStream.takeSequence call item
    else link
  | _ => link

/-- A call can succeed once a delivery has been answered so, or when the connection it was typed
for is gone. -/
def maySucceed (link : TerminalInputLink) (call : Nat) : Bool :=
  match link.sends call with
  | none => true
  | some send => link.answered.contains call || send.epoch ≠ link.epoch

/-- A failed call takes the stream it was numbered in with it. -/
def invalidate (link : TerminalInputLink) (call : Nat) : TerminalInputLink :=
  match link.sends call, link.stream with
  | some send, some stream =>
    if stream.id = send.stream then { link with stream := none } else link
  | _, _ => link

def onPump (link : TerminalInputLink) (event : PumpEvent) (refuses : Nat → Bool) :
    TerminalInputLink :=
  let (pump, signals) := (terminalInputPump true).step link.pump event
  signals.foldl (number refuses) { link with pump }

def deliver (link : TerminalInputLink) (call : Nat) (enqueue : Nat → Except String Unit) :
    TerminalInputLink × List (Nat × Except String Unit) :=
  match link.sends call with
  | none => (link, [])
  | some send =>
    let (input, _, result) := (link.native send.stream).accept
      { sequence := send.sequence, packet := send.packet, enqueue }
    ({ link with
      native := update link.native send.stream input
      answered := if result.isOk then call :: link.answered else link.answered },
     [(call, result)])

end TerminalInputLink

def terminalInputLink : Transducer TerminalInputLink LinkEvent (Nat × Except String Unit) where
  step link
    | .pump (.settled call failed) refuses =>
      if failed then ((link.invalidate call).onPump (.settled call failed) refuses, [])
      else if link.maySucceed call then (link.onPump (.settled call failed) refuses, [])
      else (link, [])
    | .pump event refuses => (link.onPump event refuses, [])
    | .delivered call enqueue => link.deliver call enqueue
    | .reconnected => ({ link with epoch := link.epoch + 1 }, [])
    | .streamReset => ({ link with stream := none }, [])
    | .replaced =>
      ({ link with pump := { launches := link.pump.launches }, stream := none }, [])

def PumpSignal.flight : PumpSignal → Option OrderedFlight
  | .sent call item =>
    if TerminalInputPump.pipelines true item then some { call, item } else none
  | _ => none

open PumpSignal

namespace TerminalInputPump

/-- What an event leaves of the flights before it launches anything. -/
def settledFlights (pump : TerminalInputPump) : PumpEvent → List OrderedFlight
  | .settled call failed =>
    match pump.calls.lookup call with
    | none => pump.orderedFlights
    | some _ => (pump.orderedFlights.map (settleFlight call failed)).dropWhile (·.settled)
  | _ => pump.orderedFlights

theorem quiet_flights {signals : List PumpSignal}
    (quiet : ∀ signal ∈ signals, signal.sentCall = none) :
    signals.filterMap PumpSignal.flight = [] := by
  apply filterMap_eq_nil_iff.mpr
  intro signal inside
  have silent := quiet signal inside
  cases signal with
  | sent call item => exact nomatch silent
  | completed call => rfl
  | resolved ticket => rfl
  | rejected ticket => rfl

variable (pump : TerminalInputPump)

theorem drain_flights :
    (pump.drain true).1.orderedFlights =
      pump.orderedFlights ++ (pump.drain true).2.filterMap PumpSignal.flight := by
  refine drain_preserves (fun after log =>
    after.orderedFlights = pump.orderedFlights ++ log.filterMap PumpSignal.flight) ?_ ?_ pump []
    (append_nil _).symm
  · intro after log next rest same _ _ _ pipelined
    simp [launchFast, same, PumpSignal.flight, pipelined]
  · intro after log next rest same _ _ _ barrier
    unfold launchOrdered
    dsimp only
    split
    · simpa using same
    · simp [same, PumpSignal.flight, barrier]

theorem enqueue_flights (ticket : Nat) (sessionId : String) (text : List UInt16)
    (origin : SyncInputOrigin) (options : TerminalInputSendOptions) :
    (pump.enqueue true ticket sessionId text origin options).1.orderedFlights =
      pump.orderedFlights ++ (pump.enqueue true ticket sessionId text origin options).2.filterMap
        PumpSignal.flight := by
  unfold enqueue
  split
  · simp [PumpSignal.flight]
  · split
    · simp [PumpSignal.flight]
    · exact drain_flights _

theorem abortPending_flights (signal fuel : Nat) (pump : TerminalInputPump) :
    (abortPending true signal fuel pump).1.orderedFlights =
      pump.orderedFlights ++ (abortPending true signal fuel pump).2.filterMap PumpSignal.flight := by
  induction fuel generalizing pump with
  | zero => simp [abortPending]
  | succ fuel ih =>
    rw [abortPending]
    split
    · simp
    next item _ =>
      dsimp only
      rw [ih, drain_flights, filterMap_append, filterMap_append,
        quiet_flights (resolveWaiters_quiet item true), nil_append, append_assoc]

theorem scheduleFastDrain_flights :
    pump.scheduleFastDrain.orderedFlights = pump.orderedFlights := by
  unfold scheduleFastDrain
  split <;> rfl

/-- The flights after an event: those it leaves, and what it launches in the order of the calls. -/
theorem step_flights (event : PumpEvent) :
    ((terminalInputPump true).step pump event).1.orderedFlights =
      pump.settledFlights event ++
        ((terminalInputPump true).step pump event).2.filterMap PumpSignal.flight := by
  cases event with
  | enqueue ticket sessionId text origin options =>
    exact enqueue_flights pump ticket sessionId text origin options
  | enqueueFast ticket sessionId text origin options =>
    show (pump.enqueueFast true ticket sessionId text origin options).1.orderedFlights =
      pump.orderedFlights ++
        (pump.enqueueFast true ticket sessionId text origin options).2.filterMap PumpSignal.flight
    unfold enqueueFast
    split
    · simp
    · split
      · exact enqueue_flights pump ticket sessionId text origin options
      · simp [scheduleFastDrain_flights]
  | microtask generation =>
    show (pump.flush true generation).1.orderedFlights =
      pump.orderedFlights ++ (pump.flush true generation).2.filterMap PumpSignal.flight
    unfold flush
    split
    · dsimp only
      split
      · simp
      · exact drain_flights _
    · simp
  | settled call failed =>
    show (pump.settleFast true call failed).1.orderedFlights =
      pump.settledFlights (.settled call failed) ++
        (pump.settleFast true call failed).2.filterMap PumpSignal.flight
    unfold settleFast settledFlights
    split
    next none => simp [none]
    next item found =>
      have quiet : ∀ signal ∈ PumpSignal.completed call ::
          ((pump.orderedFlights.map (settleFlight call failed)).takeWhile (·.settled)).flatMap
            (fun flight => resolveWaiters flight.item flight.failed), signal.sentCall = none := by
        intro signal inside
        obtain rfl | inside := mem_cons.mp inside
        · rfl
        · obtain ⟨flight, _, inside⟩ := mem_flatMap.mp inside
          exact resolveWaiters_quiet _ _ signal inside
      simp only [found, if_true]
      rw [filterMap_append, quiet_flights quiet, nil_append]
      exact drain_flights _
  | orderedSettled failed =>
    show (pump.settleOrdered true failed).1.orderedFlights =
      pump.orderedFlights ++ (pump.settleOrdered true failed).2.filterMap PumpSignal.flight
    unfold settleOrdered
    split
    · simp
    next call item refused _ =>
      have quiet : ∀ signal ∈ PumpSignal.completed call ::
          resolveWaiters item (failed || refused), signal.sentCall = none := by
        intro signal inside
        obtain rfl | inside := mem_cons.mp inside
        · rfl
        · exact resolveWaiters_quiet _ _ signal inside
      dsimp only
      rw [filterMap_append, quiet_flights quiet, nil_append]
      exact drain_flights _
  | abort signal =>
    show (pump.abort true signal).1.orderedFlights =
      pump.orderedFlights ++ (pump.abort true signal).2.filterMap PumpSignal.flight
    unfold abort
    split
    · simp
    · exact abortPending_flights _ _ _
  | reset =>
    show pump.orderedFlights = pump.orderedFlights ++
      (pump.pending.flatMap fun item => resolveWaiters item true).filterMap PumpSignal.flight
    rw [quiet_flights, append_nil]
    intro signal inside
    obtain ⟨item, _, inside⟩ := mem_flatMap.mp inside
    exact resolveWaiters_quiet _ _ signal inside

end TerminalInputPump

open TerminalInputPump

def Arrived (arrivals : Nat → List InputArrival) (stream sequence : Nat) : Prop :=
  ∃ arrival ∈ arrivals stream, arrival.sequence = sequence

def sequenceIn (sends : Nat → Option NumberedSend) (stream call : Nat) : Option Nat :=
  (sends call).bind fun send => if send.stream = stream then some send.sequence else none

theorem sequenceIn_eq_some {sends : Nat → Option NumberedSend} {stream call sequence : Nat} :
    sequenceIn sends stream call = some sequence ↔
      ∃ send, sends call = some send ∧ send.stream = stream ∧ send.sequence = sequence := by
  simp only [sequenceIn, Option.bind_eq_some_iff]
  constructor
  · rintro ⟨send, numbered, same⟩
    split at same
    next inStream => exact ⟨send, numbered, inStream, Option.some.inj same⟩
    next => exact nomatch same
  · rintro ⟨send, numbered, inStream, same⟩
    exact ⟨send, numbered, by rw [if_pos inStream, same]⟩

/-- The flights of the present stream are its last sequences in line, and all before them have
arrived. -/
structure StreamWindow (sends : Nat → Option NumberedSend) (arrivals : Nat → List InputArrival)
    (flights : List OrderedFlight) (stream : TerminalInputStream) : Prop where
  line : ∃ first ≤ stream.next,
    flights.filterMap (fun flight => sequenceIn sends stream.id flight.call) =
      List.range' first (stream.next - first) ∧
    ∀ sequence < first, Arrived arrivals stream.id sequence
  settled : ∀ flight ∈ flights, flight.settled = true →
    ∀ sequence ∈ sequenceIn sends stream.id flight.call, Arrived arrivals stream.id sequence

theorem settleFlight_call (call : Nat) (failed : Bool) (flight : OrderedFlight) :
    (settleFlight call failed flight).call = flight.call := by
  unfold settleFlight
  split <;> rfl

theorem StreamWindow.settle {sends : Nat → Option NumberedSend}
    {arrivals : Nat → List InputArrival} {flights : List OrderedFlight}
    {stream : TerminalInputStream} (window : StreamWindow sends arrivals flights stream)
    {call : Nat} (failed : Bool)
    (came : ∀ sequence ∈ sequenceIn sends stream.id call, Arrived arrivals stream.id sequence) :
    StreamWindow sends arrivals
      ((flights.map (settleFlight call failed)).dropWhile (·.settled)) stream := by
  have marked : ∀ flight ∈ flights.map (settleFlight call failed),
      flight.settled = true → ∀ sequence ∈ sequenceIn sends stream.id flight.call,
        Arrived arrivals stream.id sequence := by
    intro flight inside settled
    obtain ⟨before, flying, rfl⟩ := mem_map.mp inside
    rw [settleFlight_call]
    by_cases same : before.call = call
    · rw [same]
      exact came
    · rw [settleFlight, if_neg same] at settled
      exact window.settled before flying settled
  refine ⟨?_, fun flight inside => marked flight ((dropWhile_sublist _).subset inside)⟩
  obtain ⟨first, within, line, before⟩ := window.line
  have whole : ((flights.map (settleFlight call failed)).takeWhile
        (·.settled)).filterMap (fun flight => sequenceIn sends stream.id flight.call) ++
      ((flights.map (settleFlight call failed)).dropWhile
        (·.settled)).filterMap (fun flight => sequenceIn sends stream.id flight.call) =
      List.range' first (stream.next - first) := by
    rw [← filterMap_append, takeWhile_append_dropWhile, filterMap_map, ← line]
    simp only [comp_def, settleFlight_call]
  obtain ⟨passed, fits, front, back⟩ := range'_eq_append_iff.mp whole.symm
  refine ⟨first + passed, by omega, ?_, ?_⟩
  · rw [back]
    congr 1
    · omega
    · omega
  · intro sequence earlier
    by_cases old : sequence < first
    · exact before sequence old
    · have inFront : sequence ∈ List.range' first passed := mem_range'_1.mpr (by omega)
      rw [← front] at inFront
      obtain ⟨flight, inside, here⟩ := mem_filterMap.mp inFront
      have settled := mem_takeWhile_imp inside
      exact marked flight ((takeWhile_sublist _).subset inside) settled sequence here

/-- What links the two ends: every numbered call is the pump's, everything eight places before a
numbered call has arrived, and what arrived was numbered. -/
structure LinkBooks (log : List PumpSignal) (arrivals : Nat → List InputArrival)
    (link : TerminalInputLink) : Prop where
  lane : TerminalInputPump.LaneBooks true log link.pump
  awake : link.pump.Awake
  flown : ∀ flight ∈ link.pump.orderedFlights, flight.call ∈ log.filterMap sentCall
  known : ∀ call send, link.sends call = some send → call ∈ log.filterMap sentCall
  chunk : ∀ call send, link.sends call = some send →
    send.packet.bytes ≤ 3 * maxPipelinedTextCharacters
  opened : ∀ call send, link.sends call = some send → send.stream < link.opened
  current : ∀ stream ∈ link.stream, stream.id < link.opened ∧ stream.epoch ≤ link.epoch
  owner : ∀ stream ∈ link.stream, ∀ call send, link.sends call = some send →
    send.stream = stream.id → send.epoch = stream.epoch
  admitted : ∀ call send, link.sends call = some send → ∀ sequence,
    sequence + maxOrderedInFlight ≤ send.sequence → Arrived arrivals send.stream sequence
  answered : ∀ call ∈ link.answered, ∃ send, link.sends call = some send ∧
    Arrived arrivals send.stream send.sequence
  native : ∀ stream, link.native stream = (orderedInput.run {} (arrivals stream)).1
  source : ∀ stream, ∀ arrival ∈ arrivals stream, ∃ call send, link.sends call = some send ∧
    send.stream = stream ∧ arrival.sequence = send.sequence ∧ arrival.packet = send.packet
  window : ∀ stream ∈ link.stream, stream.epoch = link.epoch →
    StreamWindow link.sends arrivals link.pump.orderedFlights stream

section Books

variable {log : List PumpSignal} {arrivals : Nat → List InputArrival} {link : TerminalInputLink}

theorem sequenceIn_unopened (books : LinkBooks log arrivals link) (call : Nat) :
    sequenceIn link.sends link.opened call = none := by
  cases here : sequenceIn link.sends link.opened call with
  | none => rfl
  | some sequence =>
    obtain ⟨send, numbered, inStream, _⟩ := sequenceIn_eq_some.mp here
    have older := books.opened call send numbered
    omega

theorem LinkBooks.opens (books : LinkBooks log arrivals link) :
    LinkBooks log arrivals { link with
      stream := some { id := link.opened, epoch := link.epoch }, opened := link.opened + 1 } := by
  refine { books with opened := ?_, current := ?_, owner := ?_, window := ?_ }
  · intro call send numbered
    exact lt_succ_of_lt (books.opened call send numbered)
  · intro stream isCurrent
    obtain rfl := Option.some.inj isCurrent
    exact ⟨lt_succ_self _, Nat.le_refl _⟩
  · intro stream isCurrent call send numbered inStream
    obtain rfl := Option.some.inj isCurrent
    have older := books.opened call send numbered
    simp only at inStream
    omega
  · intro stream isCurrent _
    obtain rfl := Option.some.inj isCurrent
    refine ⟨⟨0, Nat.le_refl _, ?_, fun sequence none => absurd none (Nat.not_lt_zero _)⟩, ?_⟩
    · simp [sequenceIn_unopened books]
    · intro flight _ _ sequence here
      rw [sequenceIn_unopened books] at here
      exact nomatch here

theorem LinkBooks.openStream (books : LinkBooks log arrivals link) :
    LinkBooks log arrivals link.openStream ∧
      ∃ stream, link.openStream.stream = some stream ∧ stream.epoch = link.openStream.epoch := by
  unfold TerminalInputLink.openStream
  split
  next stream here =>
    split
    next present => exact ⟨books, stream, here, present⟩
    next => exact ⟨books.opens, _, rfl, rfl⟩
  next => exact ⟨books.opens, _, rfl, rfl⟩

theorem number_sent (refuses : Nat → Bool) (link : TerminalInputLink) (call : Nat)
    (item : PendingTerminalInput) :
    link.number refuses (.sent call item) =
      if canPipelineTerminalInput item.text item.origin item.options && !refuses call then
        link.openStream.takeSequence call item
      else link := rfl

theorem openStream_pump (link : TerminalInputLink) : link.openStream.pump = link.pump := by
  unfold TerminalInputLink.openStream
  split
  · split <;> rfl
  · rfl

theorem openStream_sends (link : TerminalInputLink) : link.openStream.sends = link.sends := by
  unfold TerminalInputLink.openStream
  split
  · split <;> rfl
  · rfl

variable {stream : TerminalInputStream}

theorem takeSequence_current (isCurrent : link.stream = some stream) (call : Nat)
    (item : PendingTerminalInput) :
    link.takeSequence call item = { link with
      stream := some { stream with next := stream.next + 1 }
      sends := update link.sends call (some (stream.order item)) } := by
  unfold TerminalInputLink.takeSequence
  rw [isCurrent]

theorem flight_sentCall {signal : PumpSignal} {flight : OrderedFlight}
    (isFlight : signal.flight = some flight) : signal.sentCall = some flight.call := by
  cases signal with
  | sent call item =>
    simp only [PumpSignal.flight] at isFlight
    split at isFlight
    · rw [← Option.some.inj isFlight]
      rfl
    · exact nomatch isFlight
  | completed => exact nomatch isFlight
  | resolved => exact nomatch isFlight
  | rejected => exact nomatch isFlight

theorem inputPacketOf_bytes {item : PendingTerminalInput}
    (short : item.text.length ≤ maxPipelinedTextCharacters) :
    (inputPacketOf item).bytes ≤ 3 * maxPipelinedTextCharacters := by
  have bytes := decodeUtf16_bytes item.text
  show (String.ofList (decodeUtf16 item.text)).utf8ByteSize ≤ _
  rw [utf8ByteSize_ofList]
  omega

variable {sends : Nat → Option NumberedSend}

theorem sequenceIn_update_other {call other stream : Nat} {send : Option NumberedSend}
    (apart : other ≠ call) :
    sequenceIn (update sends call send) stream other = sequenceIn sends stream other := by
  rw [sequenceIn, sequenceIn, update_of_ne apart]

theorem update_some_cases {sends : Nat → Option NumberedSend} {call other : Nat}
    {numbered send : NumberedSend} (here : update sends call (some numbered) other = some send) :
    other = call ∧ send = numbered ∨ sends other = some send := by
  by_cases same : other = call
  · subst same
    rw [update_self] at here
    exact .inl ⟨rfl, (Option.some.inj here).symm⟩
  · rw [update_of_ne same] at here
    exact .inr here

/-- The next sequence goes to a call whose flight is the last that is numbered. -/
theorem LinkBooks.takeSequence (books : LinkBooks log arrivals link) {call : Nat}
    {item : PendingTerminalInput} (isCurrent : link.stream = some stream)
    (present : stream.epoch = link.epoch) (short : item.text.length ≤ maxPipelinedTextCharacters)
    (logged : call ∈ log.filterMap sentCall) (unsent : link.sends call = none)
    {before after : List OrderedFlight} {flight : OrderedFlight} (named : flight.call = call)
    (unsettled : flight.settled = false)
    (flights : link.pump.orderedFlights = before ++ flight :: after)
    (room : link.pump.orderedFlights.length ≤ maxOrderedInFlight)
    (apart : ∀ other ∈ before, other.call ≠ call)
    (later : ∀ other ∈ after, other.call ≠ call ∧ link.sends other.call = none) :
    LinkBooks log arrivals (link.takeSequence call item) := by
  have window := books.window stream isCurrent present
  obtain ⟨first, within, line, earlier⟩ := window.line
  have unnumbered : ∀ other ∈ flight :: after, sequenceIn link.sends stream.id other.call = none := by
    intro other inside
    obtain rfl | inside := mem_cons.mp inside
    · rw [sequenceIn, named, unsent]
      rfl
    · rw [sequenceIn, (later other inside).2]
      rfl
  have numbered : before.filterMap (fun flight => sequenceIn link.sends stream.id flight.call) =
      List.range' first (stream.next - first) := by
    rw [← line, flights, filterMap_append,
      filterMap_eq_nil_iff.mpr unnumbered, append_nil]
  have few : stream.next - first + 1 ≤ maxOrderedInFlight := by
    have length := congrArg List.length numbered
    rw [length_range'] at length
    have fewer := length_filterMap_le
      (fun flight : OrderedFlight => sequenceIn link.sends stream.id flight.call) before
    rw [flights, length_append, length_cons] at room
    omega
  have kept : ∀ other send, link.sends other = some send → update link.sends call (some (stream.order item)) other = some send := by
    intro other send here
    rw [update_of_ne (by rintro rfl; simp [unsent] at here)]
    exact here
  rw [takeSequence_current isCurrent]
  refine { books with known := ?_, chunk := ?_, opened := ?_, current := ?_, owner := ?_,
                      admitted := ?_, answered := ?_, source := ?_, window := ?_ }
  · intro other send here
    obtain ⟨rfl, _⟩ | old := update_some_cases here
    · exact logged
    · exact books.known other send old
  · intro other send here
    obtain ⟨_, rfl⟩ | old := update_some_cases here
    · exact inputPacketOf_bytes short
    · exact books.chunk other send old
  · intro other send here
    obtain ⟨_, rfl⟩ | old := update_some_cases here
    · exact (books.current stream isCurrent).1
    · exact books.opened other send old
  · intro other isOther
    obtain rfl := Option.some.inj isOther
    exact books.current stream isCurrent
  · intro other isOther call' send here inStream
    obtain rfl := Option.some.inj isOther
    obtain ⟨_, rfl⟩ | old := update_some_cases here
    · rfl
    · exact books.owner stream isCurrent call' send old inStream
  · intro other send here sequence ahead
    obtain ⟨_, rfl⟩ | old := update_some_cases here
    · have ahead : sequence + maxOrderedInFlight ≤ stream.next := ahead
      exact earlier sequence (by omega)
    · exact books.admitted other send old sequence ahead
  · intro other inside
    obtain ⟨send, here, arrived⟩ := books.answered other inside
    exact ⟨send, kept other send here, arrived⟩
  · intro other arrival inside
    obtain ⟨call', send, here, rest⟩ := books.source other arrival inside
    exact ⟨call', send, kept call' send here, rest⟩
  · intro other isOther _
    obtain rfl := Option.some.inj isOther
    have sameBefore : before.filterMap (fun flight => sequenceIn (update link.sends call
        (some (stream.order item))) stream.id flight.call) =
        List.range' first (stream.next - first) := by
      rw [← numbered]
      apply filterMap_congr
      exact fun other inside => sequenceIn_update_other (apart other inside)
    have noneAfter : after.filterMap (fun flight => sequenceIn (update link.sends call
        (some (stream.order item))) stream.id flight.call) = [] := by
      apply filterMap_eq_nil_iff.mpr
      intro other inside
      rw [sequenceIn_update_other (later other inside).1]
      exact unnumbered other (mem_cons_of_mem _ inside)
    have mine : sequenceIn (update link.sends call
        (some (stream.order item))) stream.id flight.call = some stream.next := by
      rw [named]
      simp [sequenceIn, TerminalInputStream.order]
    refine ⟨⟨first, le_succ_of_le within, ?_, earlier⟩, ?_⟩
    · show link.pump.orderedFlights.filterMap _ = List.range' first (stream.next + 1 - first)
      rw [flights, filterMap_append, sameBefore, filterMap_cons, mine, noneAfter,
        succ_sub within, range'_1_concat]
      simp [Nat.add_sub_cancel' within]
    · intro other inside settled sequence here
      by_cases same : other.call = call
      · have isFlight : other = flight := by
          rw [flights] at inside
          obtain old | new := mem_append.mp inside
          · exact absurd same (apart other old)
          · obtain rfl | new := mem_cons.mp new
            · rfl
            · exact absurd same (later other new).1
        rw [isFlight, unsettled] at settled
        exact nomatch settled
      · rw [sequenceIn_update_other same] at here
        exact window.settled other inside settled sequence here

/-- The calls that a step launches are numbered in the order of their flights. -/
theorem LinkBooks.number_all (refuses : Nat → Bool) {signals : List PumpSignal}
    (books : LinkBooks log arrivals link) {before : List OrderedFlight}
    (flights : link.pump.orderedFlights = before ++ signals.filterMap PumpSignal.flight)
    (room : link.pump.orderedFlights.length ≤ maxOrderedInFlight)
    (logged : ∀ call ∈ signals.filterMap sentCall,
      call ∈ log.filterMap sentCall)
    (unsent : ∀ call ∈ signals.filterMap sentCall, link.sends call = none)
    (apart : ∀ flight ∈ before, ∀ call ∈ signals.filterMap sentCall,
      flight.call ≠ call)
    (distinct : (signals.filterMap sentCall).Pairwise (· < ·)) :
    LinkBooks log arrivals (signals.foldl (TerminalInputLink.number refuses) link) := by
  induction signals generalizing link before with
  | nil => exact books
  | cons signal signals ih =>
    rw [foldl_cons]
    cases signal with
    | sent call item =>
      simp only [filterMap_cons, sentCall, mem_cons] at logged unsent apart distinct
      obtain ⟨smaller, distinct⟩ := pairwise_cons.mp distinct
      have loggedRest := fun other inside => logged other (.inr inside)
      -- the flight of this call, when it has one, goes to those already passed
      obtain ⟨passed, split, passedApart⟩ : ∃ passed : List OrderedFlight,
          link.pump.orderedFlights = passed ++ signals.filterMap PumpSignal.flight ∧
          ∀ flight ∈ passed, ∀ other ∈ signals.filterMap sentCall,
            flight.call ≠ other := by
        cases pipelined : pipelines true item with
        | true =>
          refine ⟨before ++ [{ call := call, item := item }], by simp [flights, PumpSignal.flight, pipelined], ?_⟩
          intro flight inside other sent
          obtain old | new := mem_append.mp inside
          · exact apart flight old other (.inr sent)
          · obtain rfl := mem_singleton.mp new
            exact Nat.ne_of_lt (smaller other sent)
        | false =>
          refine ⟨before, by simp [flights, PumpSignal.flight, pipelined], ?_⟩
          exact fun flight inside other sent => apart flight inside other (.inr sent)
      rw [number_sent]
      split
      next goes =>
        rw [Bool.and_eq_true] at goes
        have pipelined : pipelines true item = true := goes.1
        have short : item.text.length ≤ maxPipelinedTextCharacters := by
          have limits := goes.1
          simp only [canPipelineTerminalInput, Bool.and_eq_true, decide_eq_true_eq] at limits
          exact limits.2
        obtain ⟨opened, stream, isCurrent, present⟩ := books.openStream
        have samePump := openStream_pump link
        have sameSends := openStream_sends link
        have afterFlights : ∀ other ∈ signals.filterMap PumpSignal.flight,
            other.call ≠ call ∧ link.openStream.sends other.call = none := by
          intro other inside
          obtain ⟨signal, here, isFlight⟩ := mem_filterMap.mp inside
          have sent : other.call ∈ signals.filterMap sentCall :=
            mem_filterMap.mpr ⟨signal, here, flight_sentCall isFlight⟩
          rw [sameSends]
          exact ⟨Nat.ne_of_gt (smaller _ sent), unsent _ (.inr sent)⟩
        have here : link.openStream.pump.orderedFlights =
            before ++ { call := call, item := item } :: signals.filterMap PumpSignal.flight := by
          rw [samePump, flights]
          simp [PumpSignal.flight, pipelined]
        have taken : LinkBooks log arrivals (link.openStream.takeSequence call item) := by
          refine opened.takeSequence isCurrent present short (logged call (.inl rfl)) ?_ ?_ ?_ here ?_
            ?_ afterFlights
          · rw [sameSends]
            exact unsent call (.inl rfl)
          · rfl
          · rfl
          · rw [samePump]
            exact room
          · exact fun other inside => apart other inside call (.inl rfl)
        have takenPump : (link.openStream.takeSequence call item).pump = link.pump := by
          rw [takeSequence_current isCurrent]
          exact samePump
        refine ih taken (by rw [takenPump, split]) (by rw [takenPump]; exact room) loggedRest ?_
          passedApart distinct
        intro other sent
        have notThis : other ≠ call := Nat.ne_of_gt (smaller other sent)
        rw [takeSequence_current isCurrent]
        show update link.openStream.sends call _ other = none
        rw [update_of_ne notThis, sameSends]
        exact unsent other (.inr sent)
      next =>
        exact ih books split room loggedRest (fun other sent => unsent other (.inr sent))
          passedApart distinct
    | completed call => exact ih books flights room logged unsent apart distinct
    | resolved ticket => exact ih books flights room logged unsent apart distinct
    | rejected ticket => exact ih books flights room logged unsent apart distinct

theorem settledFlights_calls (pump : TerminalInputPump) (event : PumpEvent) :
    ∀ flight ∈ pump.settledFlights event, ∃ earlier ∈ pump.orderedFlights,
      earlier.call = flight.call := by
  intro flight inside
  unfold settledFlights at inside
  split at inside
  · split at inside
    · exact ⟨flight, inside, rfl⟩
    · have mapped := (dropWhile_sublist _).subset inside
      obtain ⟨earlier, flying, rfl⟩ := mem_map.mp mapped
      exact ⟨earlier, flying, (settleFlight_call _ _ _).symm⟩
  · exact ⟨flight, inside, rfl⟩

theorem StreamWindow.append_unnumbered {flights others : List OrderedFlight}
    (window : StreamWindow sends arrivals flights stream)
    (unnumbered : ∀ flight ∈ others, sends flight.call = none) :
    StreamWindow sends arrivals (flights ++ others) stream := by
  have nothing : ∀ flight ∈ others, sequenceIn sends stream.id flight.call = none := by
    intro flight inside
    rw [sequenceIn, unnumbered flight inside]
    rfl
  obtain ⟨first, within, line, before⟩ := window.line
  refine ⟨⟨first, within, ?_, before⟩, ?_⟩
  · rw [filterMap_append, line, filterMap_eq_nil_iff.mpr nothing, append_nil]
  · intro flight inside settled sequence here
    obtain old | new := mem_append.mp inside
    · exact window.settled flight old settled sequence here
    · rw [nothing flight new] at here
      exact nomatch here

/-- An event of the pump keeps the books when the calls it settles in the present stream have
arrived. -/
theorem LinkBooks.onPump (books : LinkBooks log arrivals link) (event : PumpEvent)
    (refuses : Nat → Bool)
    (slides : ∀ stream ∈ link.stream, stream.epoch = link.epoch →
      StreamWindow link.sends arrivals (link.pump.settledFlights event) stream) :
    LinkBooks (log ++ ((terminalInputPump true).step link.pump event).2) arrivals
      (link.onPump event refuses) := by
  obtain ⟨lane, awake⟩ := step_keeps books.lane books.awake event
  have flights := step_flights link.pump event
  unfold TerminalInputLink.onPump
  generalize (terminalInputPump true).step link.pump event = stepped at lane awake flights ⊢
  obtain ⟨after, signals⟩ := stepped
  have split : (log ++ signals).filterMap sentCall =
      log.filterMap sentCall ++ signals.filterMap sentCall :=
    filterMap_append
  have apart := lane.distinct
  rw [split, pairwise_append] at apart
  obtain ⟨_, distinct, later⟩ := apart
  have unsent : ∀ call ∈ signals.filterMap sentCall, link.sends call = none := by
    intro call sent
    cases here : link.sends call with
    | none => rfl
    | some send =>
      have older := later call (books.known call send here) call sent
      omega
  have newFlights : ∀ flight ∈ signals.filterMap PumpSignal.flight,
      flight.call ∈ signals.filterMap sentCall := by
    intro flight inside
    obtain ⟨signal, here, isFlight⟩ := mem_filterMap.mp inside
    exact mem_filterMap.mpr ⟨signal, here, flight_sentCall isFlight⟩
  have oldFlights : ∀ flight ∈ link.pump.settledFlights event,
      flight.call ∈ log.filterMap sentCall := by
    intro flight inside
    obtain ⟨earlier, flying, same⟩ := settledFlights_calls link.pump event flight inside
    rw [← same]
    exact books.flown earlier flying
  have stepped : LinkBooks (log ++ signals) arrivals { link with pump := after } := by
    refine { books with lane := lane, awake := awake, flown := ?_, known := ?_, window := ?_ }
    · intro flight inside
      rw [split]
      have inside : flight ∈ after.orderedFlights := inside
      rw [flights] at inside
      obtain old | new := mem_append.mp inside
      · exact mem_append_left _ (oldFlights flight old)
      · exact mem_append_right _ (newFlights flight new)
    · intro call send here
      rw [split]
      exact mem_append_left _ (books.known call send here)
    · intro stream isCurrent present
      show StreamWindow link.sends arrivals after.orderedFlights stream
      rw [flights]
      exact (slides stream isCurrent present).append_unnumbered
        fun flight inside => unsent _ (newFlights flight inside)
  refine stepped.number_all refuses flights ?_ ?_ unsent ?_ distinct
  · have within := lane.window.within
    have counted : after.fastInFlightCount = after.orderedFlights.length :=
      (lane.window.flights rfl).counted
    show after.orderedFlights.length ≤ maxOrderedInFlight
    rw [← counted]
    exact within
  · intro call sent
    rw [split]
    exact mem_append_right _ sent
  · intro flight inside call sent
    exact Nat.ne_of_lt (later _ (oldFlights flight inside) call sent)

def addArrival (arrivals : Nat → List InputArrival) (stream : Nat) (arrival : InputArrival) :
    Nat → List InputArrival :=
  update arrivals stream (arrivals stream ++ [arrival])

theorem Arrived.add {stream sequence : Nat} (arrived : Arrived arrivals stream sequence)
    (other : Nat) (arrival : InputArrival) :
    Arrived (addArrival arrivals other arrival) stream sequence := by
  obtain ⟨earlier, inside, same⟩ := arrived
  refine ⟨earlier, ?_, same⟩
  unfold addArrival
  by_cases here : stream = other
  · subst here
    rw [update_self]
    exact mem_append_left _ inside
  · rw [update_of_ne here]
    exact inside

theorem LinkBooks.deliver (books : LinkBooks log arrivals link) (call : Nat)
    (enqueue : Nat → Except String Unit) :
    ∃ arrivals, LinkBooks log arrivals (link.deliver call enqueue).1 := by
  unfold TerminalInputLink.deliver
  split
  · exact ⟨arrivals, books⟩
  next send numbered =>
    let arrival : InputArrival :=
      { sequence := send.sequence, packet := send.packet, enqueue := enqueue }
    have arrivedNow : Arrived (addArrival arrivals send.stream arrival) send.stream
        send.sequence := by
      refine ⟨arrival, ?_, rfl⟩
      unfold addArrival
      rw [update_self]
      exact mem_append_right _ (mem_singleton.mpr rfl)
    refine ⟨addArrival arrivals send.stream arrival, ?_⟩
    refine { books with admitted := ?_, answered := ?_, native := ?_, source := ?_, window := ?_ }
    · intro other otherSend here sequence ahead
      exact (books.admitted other otherSend here sequence ahead).add _ _
    · intro other inside
      have inside : other ∈ (if ((link.native send.stream).accept arrival).2.2.isOk then
          call :: link.answered else link.answered) := inside
      have old : other = call ∨ other ∈ link.answered := by
        split at inside
        · exact mem_cons.mp inside
        · exact .inr inside
      obtain rfl | old := old
      · exact ⟨send, numbered, arrivedNow⟩
      · obtain ⟨otherSend, here, arrived⟩ := books.answered other old
        exact ⟨otherSend, here, arrived.add _ _⟩
    · intro stream
      show update link.native send.stream ((link.native send.stream).accept arrival).1
        stream = _
      unfold addArrival
      by_cases here : stream = send.stream
      · subst here
        rw [update_self, update_self, Transducer.run_append, books.native]
        rfl
      · rw [update_of_ne here, update_of_ne here]
        exact books.native stream
    · intro stream earlier inside
      unfold addArrival at inside
      by_cases here : stream = send.stream
      · subst here
        rw [update_self] at inside
        obtain old | new := mem_append.mp inside
        · exact books.source _ earlier old
        · obtain rfl := mem_singleton.mp new
          exact ⟨call, send, numbered, rfl, rfl, rfl⟩
      · rw [update_of_ne here] at inside
        exact books.source stream earlier inside
    · intro stream isCurrent present
      obtain ⟨⟨first, within, line, before⟩, settled⟩ := books.window stream isCurrent present
      refine ⟨⟨first, within, line, fun sequence earlier => (before sequence earlier).add _ _⟩, ?_⟩
      intro flight inside isSettled sequence here
      exact (settled flight inside isSettled sequence here).add _ _

theorem LinkBooks.maySucceed (books : LinkBooks log arrivals link) {call : Nat}
    (may : link.maySucceed call = true) (isCurrent : link.stream = some stream)
    (present : stream.epoch = link.epoch) :
    ∀ sequence ∈ sequenceIn link.sends stream.id call, Arrived arrivals stream.id sequence := by
  intro sequence here
  obtain ⟨send, numbered, inStream, rfl⟩ := sequenceIn_eq_some.mp here
  unfold TerminalInputLink.maySucceed at may
  rw [numbered] at may
  simp only [Bool.or_eq_true, contains_iff_mem, decide_eq_true_eq] at may
  obtain answered | gone := may
  · obtain ⟨same, isSend, arrived⟩ := books.answered call answered
    rw [numbered] at isSend
    obtain rfl := Option.some.inj isSend
    rw [← inStream]
    exact arrived
  · have owner := books.owner stream isCurrent call send numbered inStream
    exact absurd (owner.trans present) gone

theorem LinkBooks.invalidate (books : LinkBooks log arrivals link) (call : Nat) :
    LinkBooks log arrivals (link.invalidate call) ∧
      (link.invalidate call).pump = link.pump ∧ (link.invalidate call).sends = link.sends ∧
      ∀ stream ∈ (link.invalidate call).stream, sequenceIn link.sends stream.id call = none := by
  unfold TerminalInputLink.invalidate
  split
  next send stream numbered isCurrent =>
    split
    next => exact ⟨{ books with current := nofun, owner := nofun, window := nofun }, rfl, rfl, nofun⟩
    next other =>
      refine ⟨books, rfl, rfl, ?_⟩
      intro found isFound
      rw [isCurrent] at isFound
      obtain rfl := Option.some.inj isFound
      simp [sequenceIn, numbered, Ne.symm other]
  next none =>
    refine ⟨books, rfl, rfl, ?_⟩
    intro found isFound
    cases numbered : link.sends call with
    | none => simp [sequenceIn, numbered]
    | some send => exact absurd isFound (none send found numbered)

theorem LinkBooks.replaced (books : LinkBooks log arrivals link) :
    ∃ log, LinkBooks log arrivals
      { link with pump := { launches := link.pump.launches }, stream := none } := by
  obtain ⟨done, quiet, finished⟩ : ∃ done : List PumpSignal,
      (∀ signal ∈ done, signal.sentCall = none) ∧
      ∀ call ∈ log.filterMap sentCall, .completed call ∈ done := by
    refine ⟨(log.filterMap sentCall).map PumpSignal.completed, ?_, ?_⟩
    · intro signal inside
      obtain ⟨call, _, rfl⟩ := mem_map.mp inside
      rfl
    · exact fun call sent => mem_map.mpr ⟨call, sent, rfl⟩
  have old := books.lane.append_quiet done quiet
  have window : TerminalInputPump.WindowBooks true { launches := link.pump.launches } :=
    windowBooks_fresh _
  have lane : TerminalInputPump.LaneBooks true (log ++ done)
      { launches := link.pump.launches } := by
    refine ⟨window, old.barriers, ?_, old.numbered, old.distinct⟩
    intro call item sent
    obtain sent | loud := mem_append.mp sent
    · have inLog : call ∈ log.filterMap sentCall :=
        mem_filterMap.mpr ⟨.sent call item, sent, rfl⟩
      exact .inl (mem_append_right _ (finished call inLog))
    · exact nomatch quiet _ loud
  refine ⟨log ++ done, { books with
    lane := lane, awake := .inl rfl, flown := ?_, known := ?_, current := ?_, owner := ?_,
    window := ?_ }⟩
  · exact fun flight inside => nomatch inside
  · intro call send here
    rw [filterMap_append]
    exact mem_append_left _ (books.known call send here)
  · exact fun stream inside => nomatch inside
  · exact fun stream inside => nomatch inside
  · exact fun stream inside => nomatch inside

theorem StreamWindow.settled_event {pump : TerminalInputPump}
    (window : StreamWindow sends arrivals pump.orderedFlights stream) (call : Nat) (failed : Bool)
    (came : ∀ sequence ∈ sequenceIn sends stream.id call, Arrived arrivals stream.id sequence) :
    StreamWindow sends arrivals (pump.settledFlights (.settled call failed)) stream := by
  show StreamWindow sends arrivals (match pump.calls.lookup call with
    | none => pump.orderedFlights
    | some _ => (pump.orderedFlights.map (settleFlight call failed)).dropWhile
        (·.settled)) stream
  split
  · exact window
  · exact window.settle failed came

theorem LinkBooks.step (books : LinkBooks log arrivals link) (event : LinkEvent) :
    ∃ log arrivals, LinkBooks log arrivals (terminalInputLink.step link event).1 := by
  have others : ∀ pumpEvent refuses, link.pump.settledFlights pumpEvent =
      link.pump.orderedFlights →
      ∃ log arrivals, LinkBooks log arrivals (link.onPump pumpEvent refuses) := by
    intro pumpEvent refuses same
    refine ⟨_, _, books.onPump pumpEvent refuses ?_⟩
    rw [same]
    exact books.window
  cases event with
  | pump event refuses =>
    cases event with
    | settled call failed =>
      cases failed with
      | true =>
        obtain ⟨kept, _, sameSends, gone⟩ := books.invalidate call
        refine ⟨_, _, kept.onPump (.settled call true) refuses ?_⟩
        intro stream isCurrent present
        refine (kept.window stream isCurrent present).settled_event call true ?_
        intro sequence here
        rw [sameSends, gone stream isCurrent] at here
        exact nomatch here
      | false =>
        show ∃ log arrivals, LinkBooks log arrivals (if link.maySucceed call = true then
          (link.onPump (.settled call false) refuses, []) else (link, [])).1
        split
        next may =>
          refine ⟨_, _, books.onPump (.settled call false) refuses ?_⟩
          intro stream isCurrent present
          exact (books.window stream isCurrent present).settled_event call false
            (books.maySucceed may isCurrent present)
        next => exact ⟨_, _, books⟩
    | enqueue ticket sessionId text origin options =>
      exact others (.enqueue ticket sessionId text origin options) refuses rfl
    | enqueueFast ticket sessionId text origin options =>
      exact others (.enqueueFast ticket sessionId text origin options) refuses rfl
    | microtask generation => exact others (.microtask generation) refuses rfl
    | orderedSettled failed => exact others (.orderedSettled failed) refuses rfl
    | abort signal => exact others (.abort signal) refuses rfl
    | reset => exact others .reset refuses rfl
  | delivered call enqueue =>
    obtain ⟨arrivals, kept⟩ := books.deliver call enqueue
    exact ⟨_, arrivals, kept⟩
  | reconnected =>
    refine ⟨_, _, { books with current := ?_, window := ?_ }⟩
    · intro stream isCurrent
      obtain ⟨older, past⟩ := books.current stream isCurrent
      exact ⟨older, le_succ_of_le past⟩
    · intro stream isCurrent present
      have past := (books.current stream isCurrent).2
      have present : stream.epoch = link.epoch + 1 := present
      omega
  | streamReset =>
    exact ⟨_, _, { books with current := nofun, owner := nofun, window := nofun }⟩
  | replaced =>
    obtain ⟨log, kept⟩ := books.replaced
    exact ⟨log, _, kept⟩

theorem linkBooks_run (events : List LinkEvent) :
    ∃ log arrivals, LinkBooks log arrivals (terminalInputLink.run {} events).1 := by
  have step : ∀ link event, (∃ log arrivals, LinkBooks log arrivals link) →
      ∃ log arrivals, LinkBooks log arrivals (terminalInputLink.step link event).1 :=
    fun link event ⟨_, _, books⟩ => books.step event
  have initial : ∃ log arrivals, LinkBooks log arrivals {} := by
    refine ⟨[], fun _ => [], ⟨laneBooks_initial, .inl rfl, ?_, ?_, ?_, ?_, ?_, ?_,
      ?_, ?_, fun _ => rfl, ?_, ?_⟩⟩
    all_goals simp
  exact terminalInputLink.run_preserves step initial events

theorem LinkBooks.sequence_bound (books : LinkBooks log arrivals link) {call : Nat}
    {send : NumberedSend} (numbered : link.sends call = some send)
    (live : (link.native send.stream).failed = false) :
    send.sequence < (link.native send.stream).next + maxOrderedInFlight := by
  have invariant := orderedInput_invariant (arrivals send.stream)
  rw [← books.native] at invariant
  obtain ⟨queue, drained⟩ := invariant.books live
  by_contra beyond
  have arrived := books.admitted call send numbered (link.native send.stream).next (by omega)
  obtain ⟨arrival, inside, same⟩ := arrived
  obtain past | waiting := queue.known arrival inside
  · omega
  · rw [same] at waiting
    have found := lookup_isSome_iff.mpr waiting
    rw [drained] at found
    exact nomatch found

theorem sumOfBytes_le {pending : List (Nat × InputPacket)} {bound : Nat}
    (small : ∀ entry ∈ pending, entry.2.bytes ≤ bound) :
    sumOfBytes pending ≤ pending.length * bound := by
  induction pending with
  | nil => exact Nat.zero_le _
  | cons entry pending ih =>
    obtain ⟨first, rest⟩ := forall_mem_cons.mp small
    have sum := ih rest
    simp only [sumOfBytes, map_cons, sum_cons, length_cons,
      succ_mul] at sum ⊢
    omega

theorem LinkBooks.pending_bound (books : LinkBooks log arrivals link) (stream : Nat)
    (live : (link.native stream).failed = false) :
    (link.native stream).pendingBytes ≤
      maxOrderedInFlight * (3 * maxPipelinedTextCharacters) := by
  have invariant := orderedInput_invariant (arrivals stream)
  rw [← books.native] at invariant
  obtain ⟨queue, _⟩ := invariant.books live
  have fromSend : ∀ entry ∈ (link.native stream).pending, ∃ call send,
      link.sends call = some send ∧ send.stream = stream ∧ send.sequence = entry.1 ∧
      send.packet = entry.2 := by
    intro entry inside
    obtain ⟨arrival, found, packet⟩ := Option.map_eq_some_iff.mp (queue.firsts entry inside)
    have sequence : arrival.sequence = entry.1 := by simpa using find?_some found
    obtain ⟨call, send, numbered, inStream, sameSequence, samePacket⟩ :=
      books.source stream arrival (mem_of_find?_eq_some found)
    exact ⟨call, send, numbered, inStream, by rw [← sameSequence, sequence],
      by rw [← samePacket, packet]⟩
  have keys : (link.native stream).pending.map (·.1) ⊆
      List.range' (link.native stream).next maxOrderedInFlight := by
    intro key inside
    obtain ⟨entry, waits, rfl⟩ := mem_map.mp inside
    obtain ⟨call, send, numbered, inStream, sequence, _⟩ := fromSend entry waits
    subst inStream
    have bound := books.sequence_bound numbered live
    have ahead := queue.waiting entry waits
    exact mem_range'_1.mpr (by omega)
  have few : (link.native stream).pending.length ≤ maxOrderedInFlight := by
    have fewer := (subperm_of_subset queue.keys keys).length_le
    rwa [length_map, length_range'] at fewer
  have small : ∀ entry ∈ (link.native stream).pending,
      entry.2.bytes ≤ 3 * maxPipelinedTextCharacters := by
    intro entry waits
    obtain ⟨call, send, numbered, _, _, packet⟩ := fromSend entry waits
    rw [← packet]
    exact books.chunk call send numbered
  rw [queue.bytes]
  exact Nat.le_trans (sumOfBytes_le small) (Nat.mul_le_mul_right _ few)

end Books

/-- In every run of the link, whatever is typed and in whatever order and how often the calls are
delivered: a queue that has not failed finds no call out of its limits. -/
theorem ordered_link_within_limits (events : List LinkEvent) :
    ∀ call send, (terminalInputLink.run {} events).1.sends call = some send →
      ((terminalInputLink.run {} events).1.native send.stream).failed = false →
      send.sequence - ((terminalInputLink.run {} events).1.native send.stream).next <
          maxReorderedPackets ∧
        send.packet.bytes ≤ maxPacketBytes ∧
        ((terminalInputLink.run {} events).1.native send.stream).pendingBytes +
          send.packet.bytes ≤ maxPendingBytes := by
  intro call send numbered live
  obtain ⟨log, arrivals, books⟩ := linkBooks_run events
  have sequence := books.sequence_bound numbered live
  have pending := books.pending_bound send.stream live
  have chunk := books.chunk call send numbered
  simp only [maxOrderedInFlight, maxReorderedPackets, maxPacketBytes, maxPendingBytes,
    maxPipelinedTextCharacters] at *
  refine ⟨by omega, by omega, by omega⟩

/-- Sixteen keystrokes of which the first eight are in flight; the fourth is the next to come. -/
theorem fourth_keystroke_within_limits :
    3 - ((terminalInputLink.run {} ((List.range 16).map fun ticket =>
        .pump (.enqueue ticket "serial" [0x20AC] .atomic {}) fun _ => false)).1.native 0).next <
      maxReorderedPackets := by
  have within := ordered_link_within_limits ((List.range 16).map fun ticket =>
    .pump (.enqueue ticket "serial" [0x20AC] .atomic {}) fun _ => false) 3
    { stream := 0, sequence := 3, epoch := 0,
      packet := { text := String.ofList [Char.ofNat 0x20AC], coalesce := false, sensitive := false } }
    rfl rfl
  exact within.1

end PortMate
