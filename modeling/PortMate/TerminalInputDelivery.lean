import PortMate.TerminalInputLink

namespace PortMate

open List Function Nat PumpSignal

namespace TerminalInputLink

/-- What the native queue of a stream hands on at one event. -/
def handedAt (stream : Nat) (link : TerminalInputLink) : LinkEvent → List HandedOn
  | .delivered call enqueue =>
    match link.sends call with
    | none => []
    | some send =>
      if send.stream = stream then
        ((link.native stream).accept
          { sequence := send.sequence, packet := send.packet, enqueue }).2.1
      else []
  | _ => []

def handedOver (stream : Nat) : TerminalInputLink → List LinkEvent → List HandedOn
  | _, [] => []
  | link, event :: events =>
    link.handedAt stream event ++ handedOver stream (terminalInputLink.step link event).1 events

end TerminalInputLink

open TerminalInputLink

section Numbers

variable {link : TerminalInputLink}

/-- Within a stream, later calls have later numbers, all below the next one to be given. -/
structure NumberedInOrder (link : TerminalInputLink) : Prop where
  opened : ∀ call send, link.sends call = some send → send.stream < link.opened
  current : ∀ stream ∈ link.stream, stream.id < link.opened
  below : ∀ stream ∈ link.stream, ∀ call send, link.sends call = some send →
    send.stream = stream.id → send.sequence < stream.next
  rising : ∀ call later send other, link.sends call = some send → link.sends later = some other →
    send.stream = other.stream → call < later → send.sequence < other.sequence

theorem NumberedInOrder.unstreamed (order : NumberedInOrder link) (pump : TerminalInputPump) :
    NumberedInOrder { link with pump, stream := none } :=
  ⟨order.opened, nofun, nofun, order.rising⟩

theorem NumberedInOrder.openStream (order : NumberedInOrder link) :
    NumberedInOrder link.openStream ∧ ∃ stream, link.openStream.stream = some stream := by
  have fresh : NumberedInOrder { link with
      stream := some { id := link.opened, epoch := link.epoch }, opened := link.opened + 1 } := by
    refine ⟨fun call send here => lt_succ_of_lt (order.opened call send here), ?_, ?_,
      order.rising⟩
    · rintro stream ⟨⟩
      exact lt_succ_self _
    · rintro stream ⟨⟩ call send here same
      exact absurd same (Nat.ne_of_lt (order.opened call send here))
  unfold TerminalInputLink.openStream
  split
  next stream isCurrent =>
    split
    · exact ⟨order, stream, isCurrent⟩
    · exact ⟨fresh, _, rfl⟩
  · exact ⟨fresh, _, rfl⟩

theorem NumberedInOrder.takeSequence (order : NumberedInOrder link) {stream : TerminalInputStream}
    (isCurrent : link.stream = some stream) {call : Nat} (item : PendingTerminalInput)
    (newer : ∀ earlier send, link.sends earlier = some send → earlier < call) :
    NumberedInOrder (link.takeSequence call item) ∧
      ∀ earlier send, (link.takeSequence call item).sends earlier = some send →
        earlier = call ∧ send = stream.order item ∨ link.sends earlier = some send := by
  have looked : ∀ earlier send, (link.takeSequence call item).sends earlier = some send →
      earlier = call ∧ send = stream.order item ∨ link.sends earlier = some send := by
    intro earlier send here
    rw [takeSequence_current isCurrent] at here
    exact update_some_cases here
  refine ⟨⟨fun earlier send here => ?_, ?_, ?_, ?_⟩, looked⟩
  · obtain ⟨-, rfl⟩ | old := looked earlier send here
    · rw [takeSequence_current isCurrent]
      exact order.current stream isCurrent
    · rw [takeSequence_current isCurrent]
      exact order.opened earlier send old
  · intro taken isTaken
    rw [takeSequence_current isCurrent] at isTaken ⊢
    cases isTaken
    exact order.current stream isCurrent
  · intro taken isTaken earlier send here inStream
    rw [takeSequence_current isCurrent] at isTaken
    cases isTaken
    obtain ⟨-, rfl⟩ | old := looked earlier send here
    · exact lt_succ_self _
    · exact lt_succ_of_lt (order.below stream isCurrent earlier send old inStream)
  · intro earlier later send other here there same before
    obtain ⟨rfl, rfl⟩ | old := looked earlier send here
    · obtain ⟨rfl, -⟩ | older := looked later other there
      · exact absurd before (Nat.lt_irrefl _)
      · exact absurd (newer later other older) (Nat.lt_asymm before)
    · obtain ⟨rfl, rfl⟩ | older := looked later other there
      · exact order.below stream isCurrent earlier send old same
      · exact order.rising earlier later send other old older same before

/-- The calls that a step launches are numbered behind all others, and those keep their numbers. -/
theorem NumberedInOrder.number_all (refuses : Nat → Bool) {signals : List PumpSignal}
    (order : NumberedInOrder link)
    (newer : ∀ call ∈ signals.filterMap sentCall, ∀ earlier send,
      link.sends earlier = some send → earlier < call)
    (distinct : (signals.filterMap sentCall).Pairwise (· < ·)) :
    NumberedInOrder (signals.foldl (number refuses) link) ∧
      (∀ call send, link.sends call = some send →
        (signals.foldl (number refuses) link).sends call = some send) ∧
      (signals.foldl (number refuses) link).native = link.native := by
  induction signals generalizing link with
  | nil => exact ⟨order, fun _ _ here => here, rfl⟩
  | cons signal signals ih =>
    rw [foldl_cons]
    cases signal with
    | sent call item =>
      simp only [filterMap_cons, sentCall, mem_cons] at newer distinct
      obtain ⟨smaller, distinct⟩ := pairwise_cons.mp distinct
      rw [number_sent]
      split
      · obtain ⟨opened, stream, isCurrent⟩ := order.openStream
        have sends := openStream_sends link
        have first : ∀ earlier send, link.openStream.sends earlier = some send → earlier < call :=
          fun earlier send here => newer call (.inl rfl) earlier send (sends ▸ here)
        obtain ⟨taken, looked⟩ := opened.takeSequence isCurrent item first
        obtain ⟨after, kept, native⟩ := ih taken (fun later sent earlier send here => by
          obtain ⟨rfl, -⟩ | old := looked earlier send here
          · exact smaller later sent
          · exact newer later (.inr sent) earlier send (sends ▸ old)) distinct
        refine ⟨after, fun earlier send here => kept earlier send ?_, native.trans ?_⟩
        · rw [takeSequence_current isCurrent]
          show update link.openStream.sends call _ earlier = some send
          rw [update_of_ne (Nat.ne_of_lt (newer call (.inl rfl) earlier send here)), sends]
          exact here
        · rw [takeSequence_current isCurrent]
          unfold TerminalInputLink.openStream
          split
          · split <;> rfl
          · rfl
      · exact ih order (fun later sent => newer later (.inr sent)) distinct
    | completed call => exact ih order newer distinct
    | resolved ticket => exact ih order newer distinct
    | rejected ticket => exact ih order newer distinct

/-- What a part of a run does for a stream: it numbers on, and its native queue takes deliveries of
calls numbered in that stream. -/
structure Delivers (stream : Nat) (link after : TerminalInputLink) (handed : List HandedOn) :
    Prop where
  order : NumberedInOrder after
  sends : ∀ call send, link.sends call = some send → after.sends call = some send
  queue : ∃ arrivals, after.native stream = (orderedInput.run (link.native stream) arrivals).1 ∧
    handed = (orderedInput.run (link.native stream) arrivals).2 ∧
    ∀ arrival ∈ arrivals, ∃ call send, after.sends call = some send ∧ send.stream = stream ∧
      arrival.sequence = send.sequence ∧ arrival.packet = send.packet

theorem Delivers.still {stream : Nat} {after : TerminalInputLink} (order : NumberedInOrder after)
    (sends : ∀ call send, link.sends call = some send → after.sends call = some send)
    (native : after.native = link.native) : Delivers stream link after [] :=
  ⟨order, sends, [], by rw [native]; rfl, rfl, nofun⟩

variable {log : List PumpSignal} {arrivals : Nat → List InputArrival}

theorem LinkBooks.pumped (books : LinkBooks log arrivals link) (order : NumberedInOrder link)
    (stream : Nat) (event : PumpEvent) (refuses : Nat → Bool) :
    Delivers stream link (link.onPump event refuses) [] := by
  obtain ⟨lane, -⟩ := TerminalInputPump.step_keeps books.lane books.awake event
  unfold TerminalInputLink.onPump
  generalize (terminalInputPump true).step link.pump event = stepped at lane ⊢
  obtain ⟨pump, signals⟩ := stepped
  have apart := lane.distinct
  rw [filterMap_append, pairwise_append] at apart
  obtain ⟨-, distinct, later⟩ := apart
  have start : NumberedInOrder { link with pump } :=
    ⟨order.opened, order.current, order.below, order.rising⟩
  obtain ⟨numbered, sends, native⟩ := start.number_all refuses (fun call sent earlier send here =>
    later earlier (books.known earlier send here) call sent) distinct
  exact .still numbered sends native

theorem LinkBooks.delivers (books : LinkBooks log arrivals link) (order : NumberedInOrder link)
    (stream : Nat) (event : LinkEvent) :
    Delivers stream link (terminalInputLink.step link event).1 (link.handedAt stream event) := by
  have same : Delivers stream link link [] := .still order (fun _ _ here => here) rfl
  cases event with
  | pump event refuses =>
    cases event with
    | settled call failed =>
      cases failed with
      | true =>
        obtain ⟨kept, -, sends, -⟩ := books.invalidate call
        have left : NumberedInOrder (link.invalidate call) ∧
            (link.invalidate call).native = link.native := by
          unfold TerminalInputLink.invalidate
          split
          · split
            · exact ⟨order.unstreamed link.pump, rfl⟩
            · exact ⟨order, rfl⟩
          · exact ⟨order, rfl⟩
        obtain ⟨after, numbered, arrived, queue⟩ :=
          kept.pumped left.1 stream (.settled call true) refuses
        rw [sends] at numbered
        rw [left.2] at queue
        exact ⟨after, numbered, arrived, queue⟩
      | false =>
        show Delivers stream link (if link.maySucceed call = true then
          (link.onPump (.settled call false) refuses, []) else (link, [])).1 []
        split
        · exact books.pumped order stream (.settled call false) refuses
        · exact same
    | enqueue ticket sessionId text origin options =>
      exact books.pumped order stream (.enqueue ticket sessionId text origin options) refuses
    | enqueueFast ticket sessionId text origin options =>
      exact books.pumped order stream (.enqueueFast ticket sessionId text origin options) refuses
    | microtask generation => exact books.pumped order stream (.microtask generation) refuses
    | orderedSettled failed => exact books.pumped order stream (.orderedSettled failed) refuses
    | abort signal => exact books.pumped order stream (.abort signal) refuses
    | reset => exact books.pumped order stream .reset refuses
  | delivered call enqueue =>
    show Delivers stream link (link.deliver call enqueue).1
      (link.handedAt stream (.delivered call enqueue))
    cases numbered : link.sends call with
    | none =>
      simp only [TerminalInputLink.deliver, handedAt, numbered]
      exact same
    | some send =>
      simp only [TerminalInputLink.deliver, handedAt, numbered]
      refine ⟨⟨order.opened, order.current, order.below, order.rising⟩, fun _ _ here => here, ?_⟩
      by_cases own : send.stream = stream
      · subst own
        rw [if_pos rfl]
        refine ⟨[{ sequence := send.sequence, packet := send.packet, enqueue }],
          update_self .., (append_nil _).symm, fun arrival mem => ?_⟩
        rw [mem_singleton.mp mem]
        exact ⟨call, send, numbered, rfl, rfl, rfl⟩
      · rw [if_neg own]
        exact ⟨[], update_of_ne (Ne.symm own) .., rfl, nofun⟩
  | reconnected =>
    exact .still ⟨order.opened, order.current, order.below, order.rising⟩ (fun _ _ here => here) rfl
  | streamReset => exact .still (order.unstreamed link.pump) (fun _ _ here => here) rfl
  | replaced => exact .still (order.unstreamed _) (fun _ _ here => here) rfl

theorem delivers_run (stream : Nat) (events : List LinkEvent)
    (books : ∃ log arrivals, LinkBooks log arrivals link) (order : NumberedInOrder link) :
    Delivers stream link (terminalInputLink.run link events).1 (link.handedOver stream events) := by
  induction events generalizing link with
  | nil => exact .still order (fun _ _ here => here) rfl
  | cons event events ih =>
    obtain ⟨log, arrivals, books⟩ := books
    obtain ⟨next, sends, first, native, handed, sources⟩ := books.delivers order stream event
    obtain ⟨after, later, rest, nativeAfter, handedAfter, others⟩ := ih (books.step event) next
    rw [Transducer.run_cons]
    refine ⟨after, fun call send here => later call send (sends call send here), first ++ rest,
      ?_, ?_, fun arrival mem => ?_⟩
    · rw [Transducer.run_append, ← native]
      exact nativeAfter
    · rw [handedOver, handed, handedAfter, Transducer.run_append, ← native]
    · obtain mem | mem := mem_append.mp mem
      · obtain ⟨call, send, here, rest⟩ := sources arrival mem
        exact ⟨call, send, later call send here, rest⟩
      · exact others arrival mem

end Numbers

/-- In every run, whatever is typed and however the calls are delivered, what a native queue hands
on are the calls that the pump numbered in its stream, from the first on, in the order in which
the pump launched them, each once and with the text that it was launched with. -/
theorem input_handed_on_as_launched (events : List LinkEvent) (stream : Nat) :
    let link := (terminalInputLink.run {} events).1
    let handed := handedOver stream {} events
    handed.map (·.1) = List.range handed.length ∧
      (∀ entry ∈ handed, ∃ call send, link.sends call = some send ∧ send.stream = stream ∧
        entry = (send.sequence, send.packet)) ∧
      ∀ call later send other, link.sends call = some send → link.sends later = some other →
        send.stream = stream → other.stream = stream →
          (call < later ↔ send.sequence < other.sequence) := by
  intro link handed
  obtain ⟨order, -, arrivals, -, same, sources⟩ := @delivers_run {} stream events
    (linkBooks_run []) ⟨nofun, nofun, nofun, nofun⟩
  have inOrder := (orderedInput_invariant arrivals).inOrder
  rw [← show handed = (orderedInput.run {} arrivals).2 from same] at inOrder
  refine ⟨inOrder.sequences, fun entry mem => ?_, fun call later send other here there own also => ?_⟩
  · obtain ⟨arrival, found, packet⟩ := Option.map_eq_some_iff.mp (inOrder.firsts entry mem)
    obtain ⟨call, send, numbered, own, sequence, sent⟩ :=
      sources arrival (mem_of_find?_eq_some found)
    have place : arrival.sequence = entry.1 := by simpa using find?_some found
    exact ⟨call, send, numbered, own, Prod.ext (place.symm.trans sequence) (packet.symm.trans sent)⟩
  · refine ⟨order.rising call later send other here there (own.trans also.symm), fun less => ?_⟩
    obtain before | equal | after := Nat.lt_trichotomy call later
    · exact before
    · subst equal
      cases here.symm.trans there
      exact absurd less (Nat.lt_irrefl _)
    · exact absurd less
        (Nat.lt_asymm (order.rising later call other send there here (also.trans own.symm) after))

end PortMate
