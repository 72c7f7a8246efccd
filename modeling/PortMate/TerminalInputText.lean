import PortMate.TerminalInputLane

namespace PortMate

open List Bool

/-- A code unit with the session and the kind it was typed for and what `view` keeps of the
options under which it goes. -/
abbrev InputUnit (γ : Type) := String × SyncInputOrigin × γ × UInt16

section Text

variable {γ : Type} (view : TerminalInputSendOptions → γ)

def inputUnits (sessionId : String) (origin : SyncInputOrigin)
    (options : TerminalInputSendOptions) (text : List UInt16) : List (InputUnit γ) :=
  text.map fun unit => (sessionId, origin, view options, unit)

def PendingTerminalInput.units (item : PendingTerminalInput) : List (InputUnit γ) :=
  inputUnits view item.sessionId item.origin item.options item.text

def unitsPending (pending : List PendingTerminalInput) : List (InputUnit γ) :=
  pending.flatMap (·.units view)

def PumpSignal.units : PumpSignal → List (InputUnit γ)
  | .sent _ item => item.units view
  | _ => []

def unitsSent (signals : List PumpSignal) : List (InputUnit γ) :=
  signals.flatMap (·.units view)

/-- The entry that an event asks for, when it asks for one. -/
def PumpEvent.entry : PumpEvent → Option PendingTerminalInput
  | .enqueue _ sessionId text origin options | .enqueueFast _ sessionId text origin options =>
    if sessionId = "" ∨ text = [] then none
    else some { sessionId, text, origin, options, waiters := [] }
  | _ => none

def unitsEnqueued (events : List PumpEvent) : List (InputUnit γ) :=
  unitsPending view (events.filterMap PumpEvent.entry)

end Text

def TerminalInputSendOptions.unfenced (options : TerminalInputSendOptions) :
    TerminalInputSendOptions :=
  { options with expectedConnectedSince := none, expectedInputEpoch := none }

/-- A run of entries, sends and their ends: nothing is cancelled. -/
def PumpEvent.interrupts : PumpEvent → Bool
  | .abort _ | .reset => true
  | _ => false

namespace TerminalInputPump

/-- The options under which an entry will be sent: its own, or those of the tail it joins. -/
def optionsJoined (orderedPipeline : Bool) (pending : List PendingTerminalInput)
    (item : PendingTerminalInput) : TerminalInputSendOptions :=
  match pending.getLast? with
  | none => item.options
  | some tail => if coalesces orderedPipeline tail item then tail.options else item.options

/-- An entry that joins the tail of the queue has the tail's fences. -/
def FencesAgree (orderedPipeline : Bool) (pump : TerminalInputPump) (event : PumpEvent) : Prop :=
  ∀ item ∈ event.entry, ∀ tail ∈ pump.pending.getLast?,
    coalesces orderedPipeline tail item = true →
    tail.options.expectedConnectedSince = item.options.expectedConnectedSince ∧
      tail.options.expectedInputEpoch = item.options.expectedInputEpoch

variable {γ : Type} (view : TerminalInputSendOptions → γ) {orderedPipeline : Bool}

theorem unitsPending_append (pending others : List PendingTerminalInput) :
    unitsPending view (pending ++ others) =
      unitsPending view pending ++ unitsPending view others :=
  flatMap_append

theorem unitsSent_append (signals others : List PumpSignal) :
    unitsSent view (signals ++ others) = unitsSent view signals ++ unitsSent view others :=
  flatMap_append

theorem unitsSent_quiet {signals : List PumpSignal}
    (quiet : ∀ signal ∈ signals, signal.sentCall = none) : unitsSent view signals = [] := by
  apply flatMap_eq_nil_iff.mpr
  intro signal inside
  have silent := quiet signal inside
  cases signal with
  | sent call item => exact nomatch silent
  | completed call => rfl
  | resolved ticket => rfl
  | rejected ticket => rfl

theorem coalesces_sessionId {tail item : PendingTerminalInput}
    (joins : coalesces orderedPipeline tail item = true) :
    tail.sessionId = item.sessionId ∧ tail.origin = item.origin ∧
      tail.options.unfenced = item.options.unfenced := by
  simp only [coalesces, and_eq_true, decide_eq_true_eq, not_eq_true',
    Option.isNone_iff_eq_none] at joins
  obtain ⟨⟨⟨⟨⟨⟨⟨⟨⟨⟨⟨ours, theirs⟩, session⟩, await⟩, tailAwait⟩, signal⟩, tailSignal⟩, write⟩,
    tailWrite⟩, binary⟩, sensitive⟩, _⟩ := joins
  refine ⟨session, by rw [ours, theirs], ?_⟩
  simp [TerminalInputSendOptions.unfenced, await, tailAwait, signal, tailSignal, write, tailWrite,
    binary, sensitive]

variable (pending : List PendingTerminalInput)

theorem push_units (item : PendingTerminalInput) :
    unitsPending view (push orderedPipeline pending item) = unitsPending view pending ++
      inputUnits view item.sessionId item.origin (optionsJoined orderedPipeline pending item)
        item.text := by
  cases last : pending.getLast? with
  | none =>
    have empty := getLast?_eq_none_iff.mp last
    simp [push, optionsJoined, empty, unitsPending, PendingTerminalInput.units]
  | some tail =>
    cases joins : coalesces orderedPipeline tail item with
    | false =>
      simp [push, optionsJoined, last, joins, unitsPending, PendingTerminalInput.units]
    | true =>
      obtain ⟨session, origin, _⟩ := coalesces_sessionId joins
      obtain ⟨front, rfl⟩ := getLast?_eq_some_iff.mp last
      simp [push, optionsJoined, joins, unitsPending, PendingTerminalInput.units, merge, inputUnits,
        session, origin]

theorem optionsJoined_unfenced (item : PendingTerminalInput) :
    (optionsJoined orderedPipeline pending item).unfenced = item.options.unfenced := by
  unfold optionsJoined
  split
  · rfl
  · split
    next joins => exact (coalesces_sessionId joins).2.2
    next => rfl

theorem options_ext {options others : TerminalInputSendOptions}
    (same : options.unfenced = others.unfenced)
    (connected : options.expectedConnectedSince = others.expectedConnectedSince)
    (epoch : options.expectedInputEpoch = others.expectedInputEpoch) : options = others := by
  cases options
  cases others
  simp only [TerminalInputSendOptions.unfenced, TerminalInputSendOptions.mk.injEq] at same ⊢
  obtain ⟨await, binary, sensitive, signal, write, _⟩ := same
  exact ⟨await, binary, sensitive, signal, write, connected, epoch⟩

/-- What an event adds to the stream, under the options it will be sent with. -/
def unitsJoined (orderedPipeline : Bool) (pump : TerminalInputPump) (event : PumpEvent) :
    List (InputUnit γ) :=
  match event.entry with
  | none => []
  | some item => inputUnits view item.sessionId item.origin
      (optionsJoined orderedPipeline pump.pending item) item.text

/-- The stream that has gone out and the one still queued, with nothing cancelled. -/
def StreamIs (units : List (InputUnit γ)) (pump : TerminalInputPump) (log : List PumpSignal) :
    Prop :=
  unitsSent view log ++ unitsPending view pump.pending = units ∧ pump.aborted = []

variable {view}

variable {pump : TerminalInputPump} {log : List PumpSignal}

theorem StreamIs.append_quiet {units : List (InputUnit γ)} (stream : StreamIs view units pump log)
    (signals : List PumpSignal) (quiet : ∀ signal ∈ signals, signal.sentCall = none) :
    StreamIs view units pump (log ++ signals) := by
  refine ⟨?_, stream.2⟩
  rw [unitsSent_append, unitsSent_quiet view quiet, append_nil]
  exact stream.1

theorem StreamIs.drain {units : List (InputUnit γ)} (stream : StreamIs view units pump log) :
    StreamIs view units (pump.drain orderedPipeline).1
      (log ++ (pump.drain orderedPipeline).2) := by
  have moved : ∀ (pump : TerminalInputPump) log next rest, StreamIs view units pump log →
      pump.pending = next :: rest →
      unitsSent view (log ++ [.sent pump.launches next]) ++ unitsPending view rest = units := by
    intro pump log next rest stream queued
    have whole := stream.1
    rw [queued] at whole
    simpa [unitsSent, unitsPending, PumpSignal.units, append_assoc] using whole
  refine drain_preserves (StreamIs view units) ?_ ?_ pump log stream
  · intro pump log next rest stream queued _ _ _
    exact ⟨moved pump log next rest stream queued, stream.2⟩
  · intro pump log next rest stream queued _ _ _
    have open_ : signalAborted { pump with pending := rest } next.options = false := by
      unfold signalAborted
      split
      · rfl
      · simp [stream.2]
    simp only [launchOrdered, open_, false_eq_true, if_false]
    exact ⟨moved pump log next rest stream queued, stream.2⟩

theorem StreamIs.scheduleFastDrain {units : List (InputUnit γ)}
    (stream : StreamIs view units pump log) : StreamIs view units pump.scheduleFastDrain log := by
  unfold TerminalInputPump.scheduleFastDrain
  split
  · exact stream
  · exact stream

theorem StreamIs.enqueue {units : List (InputUnit γ)} (stream : StreamIs view units pump log)
    (ticket : Nat) (sessionId : String) (text : List UInt16) (origin : SyncInputOrigin)
    (options : TerminalInputSendOptions) :
    StreamIs view (units ++ unitsJoined view orderedPipeline pump
        (.enqueue ticket sessionId text origin options))
      (pump.enqueue orderedPipeline ticket sessionId text origin options).1
      (log ++ (pump.enqueue orderedPipeline ticket sessionId text origin options).2) := by
  have calm : pump.signalAborted options = false := by
    unfold signalAborted
    split
    · rfl
    · simp [stream.2]
  unfold TerminalInputPump.enqueue
  rw [if_neg (by simp [calm])]
  by_cases empty : sessionId = "" ∨ text = []
  · rw [if_pos empty]
    have nothing : unitsJoined view orderedPipeline pump
        (.enqueue ticket sessionId text origin options) = [] := by
      simp [unitsJoined, PumpEvent.entry, empty]
    rw [nothing, append_nil]
    exact stream.append_quiet _ (by simp [PumpSignal.sentCall])
  · rw [if_neg empty]
    refine StreamIs.drain ⟨?_, stream.2⟩
    show unitsSent view log ++ unitsPending view (push orderedPipeline pump.pending _) = _
    rw [push_units, ← append_assoc, stream.1]
    simp [unitsJoined, PumpEvent.entry, empty, optionsJoined, coalesces]

theorem StreamIs.enqueueFast {units : List (InputUnit γ)} (stream : StreamIs view units pump log)
    (ticket : Nat) (sessionId : String) (text : List UInt16) (origin : SyncInputOrigin)
    (options : TerminalInputSendOptions) :
    StreamIs view (units ++ unitsJoined view orderedPipeline pump
        (.enqueueFast ticket sessionId text origin options))
      (pump.enqueueFast orderedPipeline ticket sessionId text origin options).1
      (log ++ (pump.enqueueFast orderedPipeline ticket sessionId text origin options).2) := by
  unfold TerminalInputPump.enqueueFast
  by_cases empty : sessionId = "" ∨ text = []
  · rw [if_pos empty]
    simpa [unitsJoined, PumpEvent.entry, empty] using stream
  · rw [if_neg empty]
    split
    · exact stream.enqueue ticket sessionId text origin options
    · dsimp only
      rw [append_nil]
      apply StreamIs.scheduleFastDrain
      refine ⟨?_, stream.2⟩
      show unitsSent view log ++ unitsPending view (push orderedPipeline pump.pending _) = _
      rw [push_units, ← append_assoc, stream.1]
      simp [unitsJoined, PumpEvent.entry, empty]

theorem StreamIs.settleFast {units : List (InputUnit γ)} (stream : StreamIs view units pump log)
    (call : Nat) (failed : Bool) :
    StreamIs view units (pump.settleFast orderedPipeline call failed).1
      (log ++ (pump.settleFast orderedPipeline call failed).2) := by
  unfold TerminalInputPump.settleFast
  split
  · simpa using stream
  next item found =>
    cases orderedPipeline with
    | true =>
      have told := stream.append_quiet (.completed call ::
          ((pump.orderedFlights.map (settleFlight call failed)).takeWhile (·.settled)).flatMap
            fun flight => resolveWaiters flight.item flight.failed) (by
        intro signal inside
        obtain rfl | inside := mem_cons.mp inside
        · rfl
        · obtain ⟨flight, _, inside⟩ := mem_flatMap.mp inside
          exact resolveWaiters_quiet _ _ signal inside)
      simp only [if_true]
      rw [← append_assoc]
      exact StreamIs.drain ⟨told.1, told.2⟩
    | false =>
      have told := stream.append_quiet (.completed call :: resolveWaiters item failed) (by
        intro signal inside
        obtain rfl | inside := mem_cons.mp inside
        · rfl
        · exact resolveWaiters_quiet _ _ signal inside)
      simp only [false_eq_true, if_false]
      rw [← append_assoc]
      split
      · split
        · exact StreamIs.drain ⟨told.1, told.2⟩
        · split
          · refine StreamIs.drain (StreamIs.scheduleFastDrain ?_)
            exact ⟨told.1, told.2⟩
          · exact StreamIs.drain ⟨told.1, told.2⟩
      · rw [append_nil]
        exact ⟨told.1, told.2⟩

theorem StreamIs.settleOrdered {units : List (InputUnit γ)} (stream : StreamIs view units pump log)
    (failed : Bool) :
    StreamIs view units (pump.settleOrdered orderedPipeline failed).1
      (log ++ (pump.settleOrdered orderedPipeline failed).2) := by
  unfold TerminalInputPump.settleOrdered
  split
  · simpa using stream
  next call item refused _ =>
    have told := stream.append_quiet (.completed call :: resolveWaiters item (failed || refused)) (by
      intro signal inside
      obtain rfl | inside := mem_cons.mp inside
      · rfl
      · exact resolveWaiters_quiet _ _ signal inside)
    dsimp only
    rw [← append_assoc]
    exact StreamIs.drain ⟨told.1, told.2⟩

theorem StreamIs.flush {units : List (InputUnit γ)} (stream : StreamIs view units pump log)
    (generation : Nat) :
    StreamIs view units (pump.flush orderedPipeline generation).1
      (log ++ (pump.flush orderedPipeline generation).2) := by
  unfold TerminalInputPump.flush
  split
  · dsimp only
    split
    · simpa using (show StreamIs view units
        { pump with microtasks := pump.microtasks.erase generation } log from ⟨stream.1, stream.2⟩)
    · exact StreamIs.drain ⟨stream.1, stream.2⟩
  · simpa using stream

theorem StreamIs.step (orderedPipeline : Bool) {units : List (InputUnit γ)}
    (stream : StreamIs view units pump log) {event : PumpEvent} (plain : event.interrupts = false) :
    StreamIs view (units ++ unitsJoined view orderedPipeline pump event)
      ((terminalInputPump orderedPipeline).step pump event).1
      (log ++ ((terminalInputPump orderedPipeline).step pump event).2) := by
  cases event with
  | enqueue ticket sessionId text origin options =>
    exact stream.enqueue ticket sessionId text origin options
  | enqueueFast ticket sessionId text origin options =>
    exact stream.enqueueFast ticket sessionId text origin options
  | microtask generation =>
    rw [show unitsJoined view orderedPipeline pump (.microtask generation) = [] from rfl, append_nil]
    exact stream.flush generation
  | settled call failed =>
    rw [show unitsJoined view orderedPipeline pump (.settled call failed) = [] from rfl, append_nil]
    exact stream.settleFast call failed
  | orderedSettled failed =>
    rw [show unitsJoined view orderedPipeline pump (.orderedSettled failed) = [] from rfl, append_nil]
    exact stream.settleOrdered failed
  | abort signal => exact nomatch plain
  | reset => exact nomatch plain

variable (view) in
theorem unitsJoined_length (orderedPipeline : Bool) (pump : TerminalInputPump) (event : PumpEvent) :
    (unitsJoined view orderedPipeline pump event).length =
      (unitsEnqueued view [event]).length := by
  cases entry : event.entry with
  | none => simp [unitsJoined, unitsEnqueued, unitsPending, entry]
  | some item =>
    simp [unitsJoined, unitsEnqueued, unitsPending, entry, inputUnits, PendingTerminalInput.units]

theorem unitsJoined_unfenced (pump : TerminalInputPump) (event : PumpEvent) :
    unitsJoined TerminalInputSendOptions.unfenced orderedPipeline pump event =
      unitsEnqueued TerminalInputSendOptions.unfenced [event] := by
  cases entry : event.entry with
  | none => simp [unitsJoined, unitsEnqueued, unitsPending, entry]
  | some item =>
    simp [unitsJoined, unitsEnqueued, unitsPending, entry, inputUnits, PendingTerminalInput.units,
      optionsJoined_unfenced]

theorem entry_text {event : PumpEvent} {item : PendingTerminalInput}
    (entry : event.entry = some item) : item.text ≠ [] := by
  cases event with
  | enqueue ticket sessionId text origin options =>
    simp only [PumpEvent.entry] at entry
    split at entry
    next => exact nomatch entry
    next full =>
      obtain rfl := Option.some.inj entry
      exact fun empty => full (.inr empty)
  | enqueueFast ticket sessionId text origin options =>
    simp only [PumpEvent.entry] at entry
    split at entry
    next => exact nomatch entry
    next full =>
      obtain rfl := Option.some.inj entry
      exact fun empty => full (.inr empty)
  | microtask generation => exact nomatch entry
  | settled call failed => exact nomatch entry
  | orderedSettled failed => exact nomatch entry
  | abort signal => exact nomatch entry
  | reset => exact nomatch entry

theorem unitsJoined_iff (pump : TerminalInputPump) (event : PumpEvent) :
    unitsJoined (fun options => options) orderedPipeline pump event =
      unitsEnqueued (fun options => options) [event] ↔
      FencesAgree orderedPipeline pump event := by
  cases entry : event.entry with
  | none => simp [unitsJoined, unitsEnqueued, unitsPending, FencesAgree, entry]
  | some item =>
    obtain ⟨unit, rest, text⟩ := exists_cons_of_ne_nil (entry_text entry)
    have sameOptions : unitsJoined (fun options => options) orderedPipeline pump event =
        unitsEnqueued (fun options => options) [event] ↔
        optionsJoined orderedPipeline pump.pending item = item.options := by
      simp only [unitsJoined, unitsEnqueued, unitsPending, entry, inputUnits,
        PendingTerminalInput.units, text, filterMap_cons, filterMap_nil,
        flatMap_cons, flatMap_nil, append_nil, map_cons]
      constructor
      · intro same
        have first := (List.cons.inj same).1
        simpa using first
      · intro same
        rw [same]
    rw [sameOptions]
    unfold optionsJoined FencesAgree
    cases last : pump.pending.getLast? with
    | none => simp [entry]
    | some tail =>
      simp only [entry, Option.mem_def, Option.some.injEq, forall_eq']
      constructor
      · intro same joins
        rw [if_pos joins] at same
        rw [same]
        exact ⟨rfl, rfl⟩
      · intro agree
        split
        next joins =>
          obtain ⟨connected, epoch⟩ := agree joins
          exact options_ext (coalesces_sessionId joins).2.2 connected epoch
        next => rfl

theorem StreamIs.run (orderedPipeline : Bool) {units : List (InputUnit γ)}
    (stream : StreamIs view units pump log) (events : List PumpEvent)
    (plain : ∀ event ∈ events, event.interrupts = false) :
    ∃ joined, StreamIs view (units ++ joined) ((terminalInputPump orderedPipeline).run pump events).1
        (log ++ ((terminalInputPump orderedPipeline).run pump events).2) ∧
      joined.length = (unitsEnqueued view events).length ∧
      ((∀ pump event, unitsJoined view orderedPipeline pump event = unitsEnqueued view [event]) →
        joined = unitsEnqueued view events) ∧
      ((∀ pump event, unitsJoined view orderedPipeline pump event = unitsEnqueued view [event] ↔
        FencesAgree orderedPipeline pump event) →
        (joined = unitsEnqueued view events ↔
          (terminalInputPump orderedPipeline).StepsMeet (FencesAgree orderedPipeline) pump events)) := by
  induction events generalizing pump log units with
  | nil =>
    refine ⟨[], by simpa using stream, rfl, fun _ => rfl, fun _ => ?_⟩
    simp [unitsEnqueued, unitsPending, Transducer.StepsMeet]
  | cons event events ih =>
    have first := stream.step orderedPipeline (plain event mem_cons_self)
    obtain ⟨joined, whole, length, same, meets⟩ := ih first
      fun other inside => plain other (mem_cons_of_mem _ inside)
    have split : unitsEnqueued view (event :: events) =
        unitsEnqueued view [event] ++ unitsEnqueued view events := by
      rw [unitsEnqueued, unitsEnqueued, unitsEnqueued, ← unitsPending_append,
        ← filterMap_append, singleton_append]
    have firstLength := unitsJoined_length view orderedPipeline pump event
    refine ⟨unitsJoined view orderedPipeline pump event ++ joined, ?_, ?_, ?_, ?_⟩
    · simpa [append_assoc] using whole
    · rw [split, length_append, length_append, length, firstLength]
    · intro agree
      rw [split, agree pump event, same agree]
    · intro agree
      rw [split, Transducer.StepsMeet, ← meets agree, ← agree pump event]
      constructor
      · exact fun equal => append_inj equal firstLength
      · rintro ⟨head, tail⟩
        rw [head, tail]

end TerminalInputPump

open TerminalInputPump in
/-- The texts go out in order and once each under their flags, nothing passes a barrier, all is
sent once the sends are back; and they go out under their own fences exactly when every entry
that joined the tail of the queue had the tail's. -/
theorem terminal_input_order_and_fences (orderedPipeline : Bool) (events : List PumpEvent)
    (plain : ∀ event ∈ events, event.interrupts = false) :
    unitsSent TerminalInputSendOptions.unfenced
          ((terminalInputPump orderedPipeline).run {} events).2 ++
        unitsPending TerminalInputSendOptions.unfenced
          ((terminalInputPump orderedPipeline).run {} events).1.pending =
      unitsEnqueued TerminalInputSendOptions.unfenced events ∧
    BarriersKept orderedPipeline ((terminalInputPump orderedPipeline).run {} events).2 ∧
    (((terminalInputPump orderedPipeline).run {} events).2.filterMap
      PumpSignal.sentCall).Pairwise (· < ·) ∧
    (((terminalInputPump orderedPipeline).run {} events).1.calls = [] →
      ((terminalInputPump orderedPipeline).run {} events).1.active = none →
      ((terminalInputPump orderedPipeline).run {} events).1.microtasks = [] →
      ((terminalInputPump orderedPipeline).run {} events).1.pending = []) ∧
    (unitsSent (fun options => options) ((terminalInputPump orderedPipeline).run {} events).2 ++
        unitsPending (fun options => options)
          ((terminalInputPump orderedPipeline).run {} events).1.pending =
        unitsEnqueued (fun options => options) events ↔
      (terminalInputPump orderedPipeline).StepsMeet (FencesAgree orderedPipeline) {} events) := by
  obtain ⟨lane, awake⟩ := run_keeps orderedPipeline events
  have emptyUnfenced : StreamIs TerminalInputSendOptions.unfenced [] {} [] := ⟨rfl, rfl⟩
  have emptyWhole : StreamIs (fun options => options) [] {} [] := ⟨rfl, rfl⟩
  obtain ⟨_, unfenced, _, same, _⟩ := emptyUnfenced.run orderedPipeline events plain
  obtain ⟨_, whole, _, _, meets⟩ := emptyWhole.run orderedPipeline events plain
  refine ⟨?_, lane.barriers, lane.distinct, ?_, ?_⟩
  · have stream := unfenced.1
    rw [same unitsJoined_unfenced] at stream
    simpa using stream
  · intro calls active microtasks
    obtain empty | busy | queued | busy := awake
    · exact empty
    · simp [active] at busy
    · have waiting := lane.window.flushable queued
      simp [microtasks] at waiting
    · exact absurd calls (lane.window.some_call busy)
  · rw [← meets unitsJoined_iff]
    have stream := whole.1
    simp only [nil_append] at stream
    rw [stream]

theorem burst_sent_under_its_fences :
    unitsSent (fun options => options) ((terminalInputPump true).run {} [
        .enqueueFast 0 "serial" [0x61] .interactive { expectedInputEpoch := some (some 1) },
        .enqueueFast 0 "serial" [0x62] .interactive { expectedInputEpoch := some (some 1) },
        .microtask 1, .settled 0 false]).2 =
      unitsEnqueued (fun options => options) [
        .enqueueFast 0 "serial" [0x61] .interactive { expectedInputEpoch := some (some 1) },
        .enqueueFast 0 "serial" [0x62] .interactive { expectedInputEpoch := some (some 1) },
        .microtask 1, .settled 0 false] := by
  obtain ⟨_, _, _, sent, fences⟩ := terminal_input_order_and_fences true [
    .enqueueFast 0 "serial" [0x61] .interactive { expectedInputEpoch := some (some 1) },
    .enqueueFast 0 "serial" [0x62] .interactive { expectedInputEpoch := some (some 1) },
    .microtask 1, .settled 0 false] (by decide)
  have empty := sent rfl rfl rfl
  rw [empty] at fences
  refine (append_nil _).symm.trans (fences.mpr ⟨?_, ?_, ?_, ?_, trivial⟩)
  · rintro item ⟨rfl⟩ tail ⟨⟩
  · rintro item ⟨rfl⟩ tail ⟨rfl⟩ _
    exact ⟨rfl, rfl⟩
  · rintro item ⟨⟩
  · rintro item ⟨⟩

/-- Two keystrokes of one browser turn, the second after a reconnect: it goes out under the epoch
of the first. -/
theorem reconnected_text_sent_under_old_epoch :
    unitsEnqueued (fun options => options.expectedInputEpoch) [
        .enqueueFast 0 "serial" [0x61] .interactive { expectedInputEpoch := some (some 1) },
        .enqueueFast 0 "serial" [0x62] .interactive { expectedInputEpoch := some (some 2) },
        .microtask 1] =
      [("serial", .interactive, some (some 1), 0x61), ("serial", .interactive, some (some 2), 0x62)] ∧
    unitsSent (fun options => options.expectedInputEpoch) ((terminalInputPump true).run {} [
        .enqueueFast 0 "serial" [0x61] .interactive { expectedInputEpoch := some (some 1) },
        .enqueueFast 0 "serial" [0x62] .interactive { expectedInputEpoch := some (some 2) },
        .microtask 1]).2 =
      [("serial", .interactive, some (some 1), 0x61), ("serial", .interactive, some (some 1), 0x62)] :=
  ⟨rfl, rfl⟩

end PortMate
