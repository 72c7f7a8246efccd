import Mathlib.Data.List.TakeWhile
import PortMate.TerminalInputPump

namespace PortMate

open List

namespace TerminalInputPump

/-- With ordering, the flights are the calls not yet passed by the window, the first of them
outstanding. -/
structure FlightBooks (flights : List OrderedFlight) (calls : List (Nat × PendingTerminalInput))
    (inFlight : Nat) : Prop where
  counted : inFlight = flights.length
  front : ∀ flight ∈ flights.head?, flight.settled = false
  waiting : ∀ flight ∈ flights, flight.settled = false → (flight.call, flight.item) ∈ calls
  known : ∀ entry ∈ calls, ∃ flight ∈ flights, flight.call = entry.1 ∧ flight.settled = false

/-- What the window admits: pipelined calls up to its size, or one barrier alone. -/
structure WindowBooks (orderedPipeline : Bool) (pump : TerminalInputPump) : Prop where
  within : pump.fastInFlightCount ≤ window orderedPipeline
  pipelined : ∀ entry ∈ pump.calls, pipelines orderedPipeline entry.2 = true
  fresh : ∀ entry ∈ pump.calls, entry.1 < pump.launches
  single : orderedPipeline = false → pump.fastInFlightCount = pump.calls.length
  flights : orderedPipeline = true →
    FlightBooks pump.orderedFlights pump.calls pump.fastInFlightCount
  alone : pump.active.isSome = true → pump.fastInFlightCount = 0
  flushable : pump.fastFlushQueued = true → pump.fastFlushGeneration ∈ pump.microtasks

theorem settleFlight_unsettled {call : Nat} {failed : Bool} {flight : OrderedFlight}
    (unsettled : (settleFlight call failed flight).settled = false) :
    flight.call ≠ call ∧ settleFlight call failed flight = flight := by
  unfold settleFlight at unsettled ⊢
  split at unsettled
  next => exact nomatch unsettled
  next other => exact ⟨other, if_neg other⟩

theorem FlightBooks.settle {flights : List OrderedFlight}
    {calls : List (Nat × PendingTerminalInput)} {inFlight : Nat}
    (books : FlightBooks flights calls inFlight) (call : Nat) (failed : Bool) :
    FlightBooks ((flights.map (settleFlight call failed)).dropWhile (·.settled))
      (calls.filter fun entry => entry.1 ≠ call)
      (inFlight - ((flights.map (settleFlight call failed)).takeWhile (·.settled)).length) := by
  refine ⟨?_, ?_, ?_, ?_⟩
  · have parts := congrArg List.length (takeWhile_append_dropWhile
      (p := fun flight : OrderedFlight => flight.settled)
      (l := flights.map (settleFlight call failed)))
    have counted := books.counted
    simp only [length_append, length_map] at parts
    omega
  · intro flight first
    have unsettled := head?_dropWhile_not (·.settled) (flights.map (settleFlight call failed))
    rw [Option.mem_def.mp first] at unsettled
    exact unsettled
  · intro flight flying unsettled
    have mapped := (dropWhile_sublist _).subset flying
    obtain ⟨before, inside, rfl⟩ := mem_map.mp mapped
    obtain ⟨other, same⟩ := settleFlight_unsettled unsettled
    rw [same] at unsettled ⊢
    exact mem_filter.mpr ⟨books.waiting before inside unsettled, by simpa using other⟩
  · intro entry outstanding
    obtain ⟨outstanding, other⟩ := mem_filter.mp outstanding
    obtain ⟨flight, flying, named, unsettled⟩ := books.known entry outstanding
    have same : settleFlight call failed flight = flight := by
      refine if_neg ?_
      rw [named]
      simpa using other
    refine ⟨flight, ?_, named, unsettled⟩
    have mapped : flight ∈ flights.map (settleFlight call failed) :=
      mem_map.mpr ⟨flight, flying, same⟩
    rw [← takeWhile_append_dropWhile (p := fun flight : OrderedFlight => flight.settled)
      (l := flights.map (settleFlight call failed))] at mapped
    obtain settled | kept := mem_append.mp mapped
    · have settled := mem_takeWhile_imp settled
      rw [unsettled] at settled
      exact nomatch settled
    · exact kept

variable {orderedPipeline : Bool}

variable {pump : TerminalInputPump}

theorem WindowBooks.no_calls (books : WindowBooks orderedPipeline pump)
    (empty : pump.fastInFlightCount = 0) : pump.calls = [] := by
  cases ordering : orderedPipeline with
  | false =>
    have single := books.single ordering
    exact eq_nil_of_length_eq_zero (by omega)
  | true =>
    obtain ⟨counted, _, _, known⟩ := books.flights ordering
    have grounded : pump.orderedFlights = [] := eq_nil_of_length_eq_zero (by omega)
    apply eq_nil_iff_forall_not_mem.mpr
    intro entry outstanding
    obtain ⟨flight, flying, _⟩ := known entry outstanding
    simp [grounded] at flying

theorem WindowBooks.some_call (books : WindowBooks orderedPipeline pump)
    (busy : 0 < pump.fastInFlightCount) : pump.calls ≠ [] := by
  cases ordering : orderedPipeline with
  | false =>
    have single := books.single ordering
    intro none
    simp [none] at single
    omega
  | true =>
    obtain ⟨counted, front, waiting, _⟩ := books.flights ordering
    cases flights : pump.orderedFlights with
    | nil => simp [flights] at counted; omega
    | cons flight rest =>
      have unsettled : flight.settled = false := front flight (by simp [flights])
      have outstanding := waiting flight (by simp [flights]) unsettled
      exact ne_nil_of_mem outstanding

theorem WindowBooks.launchFast {next : PendingTerminalInput}
    (books : WindowBooks orderedPipeline pump) (idle : pump.active = none)
    (room : pump.fastInFlightCount < window orderedPipeline)
    (pipelined : pipelines orderedPipeline next = true) :
    WindowBooks orderedPipeline (pump.launchFast orderedPipeline next) := by
  refine ⟨room, ?_, ?_, ?_, ?_, ?_, books.flushable⟩
  · intro entry outstanding
    obtain old | new := mem_append.mp outstanding
    · exact books.pipelined entry old
    · obtain rfl := mem_singleton.mp new
      exact pipelined
  · intro entry outstanding
    show entry.1 < pump.launches + 1
    obtain old | new := mem_append.mp outstanding
    · exact Nat.lt_succ_of_lt (books.fresh entry old)
    · obtain rfl := mem_singleton.mp new
      exact Nat.lt_succ_self _
  · intro ordering
    have single := books.single ordering
    simp [TerminalInputPump.launchFast, single]
  · intro ordering
    obtain ⟨counted, front, waiting, known⟩ := books.flights ordering
    subst ordering
    refine ⟨by simp [TerminalInputPump.launchFast, counted], ?_, ?_, ?_⟩
    · intro flight first
      cases flights : pump.orderedFlights with
      | nil =>
        simp only [TerminalInputPump.launchFast, flights] at first
        obtain rfl : _ = flight := by simpa using first
        rfl
      | cons head rest =>
        simp only [TerminalInputPump.launchFast, flights] at first
        exact front flight (by simpa [flights] using first)
    · intro flight flying unsettled
      obtain old | new := mem_append.mp flying
      · exact mem_append_left _ (waiting flight old unsettled)
      · obtain rfl := mem_singleton.mp new
        exact mem_append_right _ (mem_singleton.mpr rfl)
    · intro entry outstanding
      obtain old | new := mem_append.mp outstanding
      · obtain ⟨flight, flying, call, unsettled⟩ := known entry old
        exact ⟨flight, mem_append_left _ flying, call, unsettled⟩
      · obtain rfl := mem_singleton.mp new
        exact ⟨_, mem_append_right _ (mem_singleton.mpr rfl), rfl, rfl⟩
  · intro busy
    simp [TerminalInputPump.launchFast, idle] at busy

theorem WindowBooks.launchOrdered (books : WindowBooks orderedPipeline pump)
    (next : PendingTerminalInput) (empty : pump.fastInFlightCount = 0) :
    WindowBooks orderedPipeline (pump.launchOrdered next).1 := by
  refine ⟨books.within, books.pipelined, ?_, books.single, books.flights, fun _ => empty,
    books.flushable⟩
  intro entry outstanding
  exact Nat.lt_succ_of_lt (books.fresh entry outstanding)

theorem WindowBooks.setPending (books : WindowBooks orderedPipeline pump)
    (pending : List PendingTerminalInput) : WindowBooks orderedPipeline { pump with pending } :=
  ⟨books.within, books.pipelined, books.fresh, books.single, books.flights, books.alone,
    books.flushable⟩

theorem scheduleFastDrain_queued (pump : TerminalInputPump) :
    pump.scheduleFastDrain.fastFlushQueued = true := by
  unfold TerminalInputPump.scheduleFastDrain
  split
  next queued => exact queued
  next => rfl

theorem WindowBooks.scheduleFastDrain (books : WindowBooks orderedPipeline pump) :
    WindowBooks orderedPipeline pump.scheduleFastDrain := by
  unfold TerminalInputPump.scheduleFastDrain
  split
  · exact books
  · exact ⟨books.within, books.pipelined, books.fresh, books.single, books.flights, books.alone,
      fun _ => by simp⟩

theorem WindowBooks.cancelFastDrain (books : WindowBooks orderedPipeline pump) :
    WindowBooks orderedPipeline pump.cancelFastDrain :=
  ⟨books.within, books.pipelined, books.fresh, books.single, books.flights, books.alone,
    fun queued => nomatch queued⟩

variable {item : PendingTerminalInput}

theorem mem_calls_of_lookup {calls : List (Nat × PendingTerminalInput)} {call : Nat}
    (found : calls.lookup call = some item) : (call, item) ∈ calls := by
  obtain ⟨before, after, rfl, _⟩ := lookup_eq_some_iff.mp found
  simp

theorem WindowBooks.single_call (books : WindowBooks false pump) {call : Nat}
    (found : pump.calls.lookup call = some item) :
    pump.calls = [(call, item)] ∧ pump.fastInFlightCount = 1 := by
  have inside := mem_calls_of_lookup found
  have single := books.single rfl
  have within : pump.fastInFlightCount ≤ 1 := books.within
  have some_length := length_pos_of_mem inside
  obtain ⟨entry, alone⟩ := length_eq_one_iff.mp (show pump.calls.length = 1 by omega)
  rw [alone] at inside
  obtain rfl := mem_singleton.mp inside
  exact ⟨alone, by omega⟩

theorem WindowBooks.settled_ordered (books : WindowBooks true pump) (call : Nat) (failed : Bool) :
    WindowBooks true { pump with
      calls := pump.calls.filter fun entry => entry.1 ≠ call
      orderedFlights :=
        (pump.orderedFlights.map (settleFlight call failed)).dropWhile (·.settled)
      fastInFlightCount := pump.fastInFlightCount -
        ((pump.orderedFlights.map (settleFlight call failed)).takeWhile (·.settled)).length } := by
  refine ⟨?_, ?_, ?_, (fun single => nomatch single), ?_, ?_, books.flushable⟩
  · exact Nat.le_trans (Nat.sub_le _ _) books.within
  · exact fun entry outstanding => books.pipelined entry (mem_filter.mp outstanding).1
  · exact fun entry outstanding => books.fresh entry (mem_filter.mp outstanding).1
  · exact fun _ => (books.flights rfl).settle call failed
  · intro busy
    have alone := books.alone busy
    show pump.fastInFlightCount - _ = 0
    omega

theorem WindowBooks.settled_legacy (books : WindowBooks false pump) {call : Nat}
    (found : pump.calls.lookup call = some item) :
    WindowBooks false { pump with
      calls := pump.calls.filter fun entry => entry.1 ≠ call
      fastInFlightCount := pump.fastInFlightCount - 1 } := by
  obtain ⟨alone, count⟩ := books.single_call found
  have emptied : (pump.calls.filter fun entry => entry.1 ≠ call) = [] := by simp [alone]
  rw [emptied, count]
  refine ⟨?_, ?_, ?_, fun _ => rfl, (fun ordered => nomatch ordered), fun _ => rfl,
    books.flushable⟩
  · exact Nat.zero_le _
  · exact fun entry outstanding => nomatch outstanding
  · exact fun entry outstanding => nomatch outstanding

end TerminalInputPump

def PumpSignal.sentCall : PumpSignal → Option Nat
  | .sent call _ => some call
  | _ => none

/-- When something is sent after a barrier, or a barrier after something, the earlier one has
come back. -/
def BarriersKept (orderedPipeline : Bool) (log : List PumpSignal) : Prop :=
  ∀ before call item after, log = before ++ .sent call item :: after →
    ∀ earlier sentItem, .sent earlier sentItem ∈ before →
      (TerminalInputPump.pipelines orderedPipeline item = false ∨
        TerminalInputPump.pipelines orderedPipeline sentItem = false) →
      .completed earlier ∈ before

theorem BarriersKept.append_quiet {orderedPipeline : Bool} {log signals : List PumpSignal}
    (kept : BarriersKept orderedPipeline log)
    (quiet : ∀ signal ∈ signals, signal.sentCall = none) :
    BarriersKept orderedPipeline (log ++ signals) := by
  intro before call item after split
  obtain ⟨mid, rfl, loud⟩ | ⟨mid, inLog, rest⟩ := append_eq_append_iff.mp split
  · have silent := quiet (.sent call item) (by simp [loud])
    exact nomatch silent
  · cases mid with
    | nil =>
      have silent := quiet (.sent call item) (by simp at rest; simp [← rest])
      exact nomatch silent
    | cons first mid =>
      obtain ⟨rfl, _⟩ := List.cons.inj rest
      exact kept before call item mid inLog

theorem BarriersKept.append_sent {orderedPipeline : Bool} {log : List PumpSignal} {call : Nat}
    {item : PendingTerminalInput} (kept : BarriersKept orderedPipeline log)
    (clear : ∀ earlier sentItem, .sent earlier sentItem ∈ log →
      (TerminalInputPump.pipelines orderedPipeline item = false ∨
        TerminalInputPump.pipelines orderedPipeline sentItem = false) →
      .completed earlier ∈ log) :
    BarriersKept orderedPipeline (log ++ [.sent call item]) := by
  intro before other otherItem after split
  obtain ⟨mid, rfl, last⟩ | ⟨mid, inLog, rest⟩ := append_eq_append_iff.mp split
  · cases mid with
    | nil =>
      obtain ⟨same, _⟩ := List.cons.inj last
      injection same with _ sameItem
      subst sameItem
      simpa using clear
    | cons first mid => simp at last
  · cases mid with
    | nil =>
      obtain ⟨same, _⟩ := List.cons.inj rest
      injection same with _ sameItem
      subst sameItem
      simp only [append_nil] at inLog
      subst inLog
      exact clear
    | cons first mid =>
      obtain ⟨rfl, _⟩ := List.cons.inj rest
      exact kept before other otherItem mid inLog

namespace TerminalInputPump

variable {orderedPipeline : Bool}

/-- The log beside the pump: what was sent has come back, or is in the window, or is the barrier
that is being written. -/
structure LaneBooks (orderedPipeline : Bool) (log : List PumpSignal) (pump : TerminalInputPump) :
    Prop where
  window : WindowBooks orderedPipeline pump
  barriers : BarriersKept orderedPipeline log
  outstanding : ∀ call item, .sent call item ∈ log → .completed call ∈ log ∨
    (call, item) ∈ pump.calls ∨ ∃ refused, pump.active = some (call, item, refused)
  numbered : ∀ call ∈ log.filterMap PumpSignal.sentCall, call < pump.launches
  distinct : (log.filterMap PumpSignal.sentCall).Pairwise (· < ·)

/-- Whatever is queued waits for something that is under way. -/
def Awake (pump : TerminalInputPump) : Prop :=
  pump.pending = [] ∨ pump.active.isSome = true ∨ pump.fastFlushQueued = true ∨
    0 < pump.fastInFlightCount

variable {log : List PumpSignal} {pump : TerminalInputPump}

theorem LaneBooks.append_quiet (books : LaneBooks orderedPipeline log pump)
    (signals : List PumpSignal) (quiet : ∀ signal ∈ signals, signal.sentCall = none) :
    LaneBooks orderedPipeline (log ++ signals) pump := by
  have same : (log ++ signals).filterMap PumpSignal.sentCall = log.filterMap PumpSignal.sentCall := by
    rw [filterMap_append, filterMap_eq_nil_iff.mpr quiet, append_nil]
  refine ⟨books.window, books.barriers.append_quiet quiet, ?_, ?_, ?_⟩
  · intro call item sent
    obtain sent | loud := mem_append.mp sent
    · obtain done | waiting := books.outstanding call item sent
      · exact .inl (mem_append_left _ done)
      · exact .inr waiting
    · exact nomatch quiet _ loud
  · rw [same]
    exact books.numbered
  · rw [same]
    exact books.distinct

theorem LaneBooks.launchFast {next : PendingTerminalInput}
    (books : LaneBooks orderedPipeline log pump) (idle : pump.active = none)
    (room : pump.fastInFlightCount < TerminalInputPump.window orderedPipeline)
    (pipelined : pipelines orderedPipeline next = true) :
    LaneBooks orderedPipeline (log ++ [.sent pump.launches next])
      (pump.launchFast orderedPipeline next) := by
  refine ⟨books.window.launchFast idle room pipelined, ?_, ?_, ?_, ?_⟩
  · apply books.barriers.append_sent
    intro earlier sentItem sent fenced
    obtain done | waiting | ⟨refused, busy⟩ := books.outstanding earlier sentItem sent
    · exact done
    · have inWindow := books.window.pipelined _ waiting
      simp [pipelined, inWindow] at fenced
    · simp [idle] at busy
  · intro call item sent
    obtain sent | new := mem_append.mp sent
    · obtain done | waiting | ⟨refused, busy⟩ := books.outstanding call item sent
      · exact .inl (mem_append_left _ done)
      · exact .inr (.inl (mem_append_left _ waiting))
      · simp [idle] at busy
    · obtain ⟨rfl, rfl⟩ : call = pump.launches ∧ item = next := by simpa using new
      exact .inr (.inl (mem_append_right _ (mem_singleton.mpr rfl)))
  · intro call sent
    show call < pump.launches + 1
    simp only [filterMap_append, mem_append] at sent
    obtain old | new := sent
    · exact Nat.lt_succ_of_lt (books.numbered call old)
    · obtain rfl : call = pump.launches := by simpa [PumpSignal.sentCall] using new
      exact Nat.lt_succ_self _
  · rw [filterMap_append, pairwise_append]
    refine ⟨books.distinct, by simp [PumpSignal.sentCall], ?_⟩
    intro call old new isNew
    obtain rfl : new = pump.launches := by simpa [PumpSignal.sentCall] using isNew
    exact books.numbered call old

theorem LaneBooks.launchOrdered {next : PendingTerminalInput}
    (books : LaneBooks orderedPipeline log pump) (idle : pump.active = none)
    (empty : pump.fastInFlightCount = 0) :
    LaneBooks orderedPipeline (log ++ (pump.launchOrdered next).2) (pump.launchOrdered next).1 := by
  have noCalls := books.window.no_calls empty
  have allDone : ∀ call item, .sent call item ∈ log → .completed call ∈ log := by
    intro call item sent
    obtain done | waiting | ⟨refused, busy⟩ := books.outstanding call item sent
    · exact done
    · simp [noCalls] at waiting
    · simp [idle] at busy
  have older : ∀ call ∈ log.filterMap PumpSignal.sentCall, call < pump.launches + 1 :=
    fun call old => Nat.lt_succ_of_lt (books.numbered call old)
  have window := books.window.launchOrdered next empty
  unfold TerminalInputPump.launchOrdered at window ⊢
  cases refused : pump.signalAborted next.options with
  | true =>
    simp only [refused, if_true, append_nil] at window ⊢
    exact ⟨window, books.barriers, fun call item sent => .inl (allDone call item sent), older,
      books.distinct⟩
  | false =>
    simp only [refused, Bool.false_eq_true, if_false] at window ⊢
    refine ⟨window, ?_, ?_, ?_, ?_⟩
    · exact books.barriers.append_sent fun earlier sentItem sent _ => allDone earlier sentItem sent
    · intro call item sent
      obtain sent | new := mem_append.mp sent
      · exact .inl (mem_append_left _ (allDone call item sent))
      · obtain ⟨rfl, rfl⟩ : call = pump.launches ∧ item = next := by simpa using new
        exact .inr (.inr ⟨false, rfl⟩)
    · intro call sent
      simp only [filterMap_append, mem_append] at sent
      obtain old | new := sent
      · exact older call old
      · obtain rfl : call = pump.launches := by simpa [PumpSignal.sentCall] using new
        exact Nat.lt_succ_self _
    · rw [filterMap_append, pairwise_append]
      refine ⟨books.distinct, by simp [PumpSignal.sentCall], ?_⟩
      intro call old new isNew
      obtain rfl : new = pump.launches := by simpa [PumpSignal.sentCall] using isNew
      exact books.numbered call old

theorem LaneBooks.setPending (books : LaneBooks orderedPipeline log pump)
    (pending : List PendingTerminalInput) : LaneBooks orderedPipeline log { pump with pending } :=
  ⟨books.window.setPending pending, books.barriers, books.outstanding, books.numbered,
    books.distinct⟩

theorem LaneBooks.cancelFastDrain (books : LaneBooks orderedPipeline log pump) :
    LaneBooks orderedPipeline log pump.cancelFastDrain :=
  ⟨books.window.cancelFastDrain, books.barriers, books.outstanding, books.numbered,
    books.distinct⟩

theorem LaneBooks.scheduleFastDrain (books : LaneBooks orderedPipeline log pump) :
    LaneBooks orderedPipeline log pump.scheduleFastDrain := by
  have window := books.window.scheduleFastDrain
  unfold TerminalInputPump.scheduleFastDrain at window ⊢
  split at window
  next queued =>
    rw [if_pos queued]
    exact books
  next queued =>
    rw [if_neg queued]
    exact ⟨window, books.barriers, books.outstanding, books.numbered, books.distinct⟩

theorem LaneBooks.drain (books : LaneBooks orderedPipeline log pump) :
    LaneBooks orderedPipeline (log ++ (pump.drain orderedPipeline).2)
      (pump.drain orderedPipeline).1 := by
  refine drain_preserves (fun pump log => LaneBooks orderedPipeline log pump) ?_ ?_ pump log books
  · intro pump log next rest books _ idle room pipelined
    exact (books.setPending rest).launchFast idle room pipelined
  · intro pump log next rest books _ idle empty _
    exact (books.setPending rest).launchOrdered idle empty

theorem resolveWaiters_quiet (item : PendingTerminalInput) (failed : Bool) :
    ∀ signal ∈ resolveWaiters item failed, signal.sentCall = none := by
  intro signal inside
  obtain ⟨waiter, _, rfl⟩ := mem_map.mp inside
  split <;> rfl

theorem LaneBooks.call_back {pump after : TerminalInputPump} {call : Nat}
    (books : LaneBooks orderedPipeline log pump) (window : WindowBooks orderedPipeline after)
    (calls : after.calls = pump.calls.filter fun entry => entry.1 ≠ call)
    (active : after.active = pump.active) (launches : after.launches = pump.launches) :
    LaneBooks orderedPipeline (log ++ [.completed call]) after := by
  have quiet := books.append_quiet [.completed call] (by simp [PumpSignal.sentCall])
  refine ⟨window, quiet.barriers, ?_, ?_, quiet.distinct⟩
  · intro other item sent
    obtain done | waiting | busy := quiet.outstanding other item sent
    · exact .inl done
    · by_cases same : other = call
      · exact .inl (by simp [same])
      · rw [calls]
        exact .inr (.inl (mem_filter.mpr ⟨waiting, by simpa using same⟩))
    · rw [active]
      exact .inr (.inr busy)
  · rw [launches]
    exact quiet.numbered

theorem LaneBooks.barrier_back {call : Nat} {item : PendingTerminalInput} {refused : Bool}
    (books : LaneBooks orderedPipeline log pump)
    (writing : pump.active = some (call, item, refused)) :
    LaneBooks orderedPipeline (log ++ [.completed call]) { pump with active := none } := by
  have quiet := books.append_quiet [.completed call] (by simp [PumpSignal.sentCall])
  have window : WindowBooks orderedPipeline { pump with active := none } :=
    ⟨books.window.within, books.window.pipelined, books.window.fresh, books.window.single,
      books.window.flights, (fun busy => nomatch busy), books.window.flushable⟩
  refine ⟨window, quiet.barriers, ?_, quiet.numbered, quiet.distinct⟩
  intro other sentItem sent
  obtain done | waiting | ⟨_, busy⟩ := quiet.outstanding other sentItem sent
  · exact .inl done
  · exact .inr (.inl waiting)
  · rw [writing] at busy
    obtain rfl : call = other := by simp at busy; exact busy.1
    exact .inl (by simp)

section Steps

variable (books : LaneBooks orderedPipeline log pump) (awake : Awake pump)

include books awake

theorem enqueue_keeps (ticket : Nat) (sessionId : String) (text : List UInt16)
    (origin : SyncInputOrigin) (options : TerminalInputSendOptions) :
    LaneBooks orderedPipeline
        (log ++ (pump.enqueue orderedPipeline ticket sessionId text origin options).2)
        (pump.enqueue orderedPipeline ticket sessionId text origin options).1 ∧
      Awake (pump.enqueue orderedPipeline ticket sessionId text origin options).1 := by
  unfold enqueue
  split
  · exact ⟨books.append_quiet _ (by simp [PumpSignal.sentCall]), awake⟩
  · split
    · exact ⟨books.append_quiet _ (by simp [PumpSignal.sentCall]), awake⟩
    · exact ⟨(books.setPending _).cancelFastDrain.drain, drain_awake _⟩

theorem enqueueFast_keeps (ticket : Nat) (sessionId : String) (text : List UInt16)
    (origin : SyncInputOrigin) (options : TerminalInputSendOptions) :
    LaneBooks orderedPipeline
        (log ++ (pump.enqueueFast orderedPipeline ticket sessionId text origin options).2)
        (pump.enqueueFast orderedPipeline ticket sessionId text origin options).1 ∧
      Awake (pump.enqueueFast orderedPipeline ticket sessionId text origin options).1 := by
  unfold enqueueFast
  split
  · exact ⟨by simpa using books, awake⟩
  · split
    · exact enqueue_keeps books awake ticket sessionId text origin options
    · dsimp only
      rw [append_nil]
      exact ⟨(books.setPending _).scheduleFastDrain,
        .inr (.inr (.inl (scheduleFastDrain_queued _)))⟩

theorem settleFast_keeps (call : Nat) (failed : Bool) :
    LaneBooks orderedPipeline (log ++ (pump.settleFast orderedPipeline call failed).2)
        (pump.settleFast orderedPipeline call failed).1 ∧
      Awake (pump.settleFast orderedPipeline call failed).1 := by
  unfold settleFast
  split
  · exact ⟨by simpa using books, awake⟩
  next item found =>
    cases orderedPipeline with
    | true =>
      have back := books.call_back (books.window.settled_ordered call failed) rfl rfl rfl
      have told := back.append_quiet
        (((pump.orderedFlights.map (settleFlight call failed)).takeWhile (·.settled)).flatMap
          fun flight => resolveWaiters flight.item flight.failed) (by
        intro signal inside
        obtain ⟨flight, _, inside⟩ := mem_flatMap.mp inside
        exact resolveWaiters_quiet _ _ signal inside)
      refine ⟨?_, drain_awake _⟩
      have drained := told.drain
      simpa [append_assoc] using drained
    | false =>
      have back := books.call_back (books.window.settled_legacy found) rfl rfl rfl
      have told := back.append_quiet _ (resolveWaiters_quiet item failed)
      have free := (books.window.single_call found).2
      have free : pump.fastInFlightCount - 1 = 0 := by omega
      -- the legacy pump drains in either branch, perhaps after it has queued a flush
      have drained := told.drain
      have flushed := told.scheduleFastDrain.drain
      simp only [Bool.false_eq_true, if_false, free, if_true]
      simp only [free, append_assoc, cons_append, nil_append] at drained flushed
      split
      · exact ⟨drained, drain_awake _⟩
      · split
        · exact ⟨flushed, drain_awake _⟩
        · exact ⟨drained, drain_awake _⟩

theorem settleOrdered_keeps (failed : Bool) :
    LaneBooks orderedPipeline (log ++ (pump.settleOrdered orderedPipeline failed).2)
        (pump.settleOrdered orderedPipeline failed).1 ∧
      Awake (pump.settleOrdered orderedPipeline failed).1 := by
  unfold settleOrdered
  split
  · exact ⟨by simpa using books, awake⟩
  next call item refused writing =>
    have back := books.barrier_back writing
    have told := back.append_quiet _ (resolveWaiters_quiet item (failed || refused))
    have drained := told.drain
    exact ⟨by simpa [append_assoc] using drained, drain_awake _⟩

theorem flush_keeps (generation : Nat) :
    LaneBooks orderedPipeline (log ++ (pump.flush orderedPipeline generation).2)
        (pump.flush orderedPipeline generation).1 ∧
      Awake (pump.flush orderedPipeline generation).1 := by
  unfold flush
  split
  · have window := books.window
    dsimp only
    split
    next stale =>
      have kept : WindowBooks orderedPipeline
          { pump with microtasks := pump.microtasks.erase generation } :=
        ⟨window.within, window.pipelined, window.fresh, window.single, window.flights,
          window.alone, fun queued => (mem_erase_of_ne (Ne.symm stale)).mpr
            (window.flushable queued)⟩
      have same : LaneBooks orderedPipeline log
          { pump with microtasks := pump.microtasks.erase generation } :=
        ⟨kept, books.barriers, books.outstanding, books.numbered, books.distinct⟩
      exact ⟨by simpa using same, awake⟩
    next =>
      have kept : WindowBooks orderedPipeline
          { pump with microtasks := pump.microtasks.erase generation, fastFlushQueued := false } :=
        ⟨window.within, window.pipelined, window.fresh, window.single, window.flights,
          window.alone, (fun queued => nomatch queued)⟩
      have same : LaneBooks orderedPipeline log
          { pump with microtasks := pump.microtasks.erase generation, fastFlushQueued := false } :=
        ⟨kept, books.barriers, books.outstanding, books.numbered, books.distinct⟩
      exact ⟨same.drain, drain_awake _⟩
  · exact ⟨by simpa using books, awake⟩

theorem abortPending_keeps {signal fuel : Nat} :
    LaneBooks orderedPipeline (log ++ (abortPending orderedPipeline signal fuel pump).2)
        (abortPending orderedPipeline signal fuel pump).1 ∧
      Awake (abortPending orderedPipeline signal fuel pump).1 := by
  induction fuel generalizing pump log with
  | zero => exact ⟨by simpa [abortPending] using books, awake⟩
  | succ fuel ih =>
    rw [abortPending]
    split
    · exact ⟨by simpa using books, awake⟩
    next item found =>
      have told := (books.setPending (pump.pending.eraseP fun item =>
        item.detachAbort && item.options.signal = some signal)).append_quiet _
          (resolveWaiters_quiet item true)
      have kept := ih told.drain (drain_awake _)
      simpa [append_assoc] using kept

theorem abort_keeps (signal : Nat) :
    LaneBooks orderedPipeline (log ++ (pump.abort orderedPipeline signal).2)
        (pump.abort orderedPipeline signal).1 ∧
      Awake (pump.abort orderedPipeline signal).1 := by
  unfold abort
  split
  · exact ⟨by simpa using books, awake⟩
  · have window := books.window
    have marked : LaneBooks orderedPipeline log { pump with aborted := signal :: pump.aborted } :=
      ⟨⟨window.within, window.pipelined, window.fresh, window.single, window.flights,
        window.alone, window.flushable⟩, books.barriers, books.outstanding, books.numbered,
        books.distinct⟩
    exact abortPending_keeps marked awake

theorem step_keeps (event : PumpEvent) :
    LaneBooks orderedPipeline (log ++ ((terminalInputPump orderedPipeline).step pump event).2)
        ((terminalInputPump orderedPipeline).step pump event).1 ∧
      Awake ((terminalInputPump orderedPipeline).step pump event).1 := by
  cases event with
  | enqueue ticket sessionId text origin options =>
    exact enqueue_keeps books awake ticket sessionId text origin options
  | enqueueFast ticket sessionId text origin options =>
    exact enqueueFast_keeps books awake ticket sessionId text origin options
  | microtask generation => exact flush_keeps books awake generation
  | settled call failed => exact settleFast_keeps books awake call failed
  | orderedSettled failed => exact settleOrdered_keeps books awake failed
  | abort signal => exact abort_keeps books awake signal
  | reset =>
    have emptied := books.cancelFastDrain.setPending []
    have told := emptied.append_quiet (pump.pending.flatMap fun item => resolveWaiters item true) (by
      intro signal inside
      obtain ⟨item, _, inside⟩ := mem_flatMap.mp inside
      exact resolveWaiters_quiet _ _ signal inside)
    exact ⟨told, .inl rfl⟩

end Steps

theorem windowBooks_fresh (launches : Nat) : WindowBooks orderedPipeline { launches } := by
  refine ⟨Nat.zero_le _, ?_, ?_, fun _ => rfl, fun _ => ⟨rfl, ?_, ?_, ?_⟩, fun _ => rfl, ?_⟩
  all_goals simp

theorem laneBooks_initial : LaneBooks orderedPipeline [] {} := by
  refine ⟨windowBooks_fresh 0, ?_, ?_, ?_, List.Pairwise.nil⟩
  all_goals simp [BarriersKept]

theorem run_keeps (orderedPipeline : Bool) (events : List PumpEvent) :
    LaneBooks orderedPipeline ((terminalInputPump orderedPipeline).run {} events).2
        ((terminalInputPump orderedPipeline).run {} events).1 ∧
      Awake ((terminalInputPump orderedPipeline).run {} events).1 := by
  have step : ∀ pump log event, LaneBooks orderedPipeline log pump ∧ Awake pump →
      LaneBooks orderedPipeline (log ++ ((terminalInputPump orderedPipeline).step pump event).2)
        ((terminalInputPump orderedPipeline).step pump event).1 ∧
      Awake ((terminalInputPump orderedPipeline).step pump event).1 :=
    fun pump log event kept => step_keeps kept.1 kept.2 event
  have initial : LaneBooks orderedPipeline [] {} ∧ Awake {} := ⟨laneBooks_initial, .inl rfl⟩
  exact (terminalInputPump orderedPipeline).run_preserves_trace step initial events

end TerminalInputPump

end PortMate
