import Mathlib.Algebra.GroupWithZero.Nat
import Mathlib.Data.List.Induction
import PortMate.Transducer

namespace PortMate

open List

def maxReorderedPackets : Nat := 32
def maxPacketBytes : Nat := 16 * 1024
def maxPendingBytes : Nat := 8 * maxPacketBytes
def maxSafeInteger : Nat := 9007199254740991

structure InputPacket where
  text : String
  coalesce : Bool
  sensitive : Bool
  deriving DecidableEq

def InputPacket.bytes (packet : InputPacket) : Nat := packet.text.utf8ByteSize

structure OrderedInput where
  next : Nat := 0
  pending : List (Nat × InputPacket) := []
  pendingBytes : Nat := 0
  failed : Bool := false

open OrderedInput

/-- A packet that comes in, and what the transport's queue answers to each sequence that
this call hands on. -/
structure InputArrival where
  sequence : Nat
  packet : InputPacket
  enqueue : Nat → Except String Unit

abbrev HandedOn := Nat × InputPacket

def inputChannelFailed : String := "终端输入通道已失效，请重新发送输入"
def inputLimitExceeded : String := "终端输入排序缓冲区超限，已停止该通道以避免乱序"

namespace OrderedInput

def sumOfBytes (pending : List (Nat × InputPacket)) : Nat :=
  (pending.map fun entry => entry.2.bytes).sum

/-- The loop that hands on what is next in line; `fuel` bounds its rounds. -/
def handOn (enqueue : Nat → Except String Unit) :
    Nat → OrderedInput → OrderedInput × List HandedOn × Except String Unit
  | 0, input => (input, [], .ok ())
  | fuel + 1, input =>
    match input.pending.lookup input.next with
    | none => (input, [], .ok ())
    | some packet =>
      let taken := { input with
        pending := input.pending.filter fun entry => entry.1 ≠ input.next
        pendingBytes := input.pendingBytes - packet.bytes }
      match enqueue input.next with
      | .error error => (taken, [(input.next, packet)], .error error)
      | .ok () =>
        let (after, handed, result) := handOn enqueue fuel { taken with next := input.next + 1 }
        (after, (input.next, packet) :: handed, result)

def exceedsLimits (input : OrderedInput) (sequence : Nat) (packet : InputPacket) : Bool :=
  maxSafeInteger < sequence ||
    maxReorderedPackets ≤ sequence - input.next ||
    maxPacketBytes < packet.bytes ||
    maxPendingBytes < input.pendingBytes + packet.bytes

def acceptInner (input : OrderedInput) (arrival : InputArrival) :
    OrderedInput × List HandedOn × Except String Unit :=
  if input.failed then (input, [], .error inputChannelFailed)
  else if arrival.sequence < input.next ∨ (input.pending.lookup arrival.sequence).isSome then
    (input, [], .ok ())
  else if input.exceedsLimits arrival.sequence arrival.packet then
    (input, [], .error inputLimitExceeded)
  else
    let buffered := { input with
      pending := (arrival.sequence, arrival.packet) :: input.pending
      pendingBytes := input.pendingBytes + arrival.packet.bytes }
    buffered.handOn arrival.enqueue buffered.pending.length

def accept (input : OrderedInput) (arrival : InputArrival) :
    OrderedInput × List HandedOn × Except String Unit :=
  match input.acceptInner arrival with
  | (after, handed, .ok ()) => (after, handed, .ok ())
  | (after, handed, .error error) =>
    ({ after with failed := true, pending := [], pendingBytes := 0 }, handed, .error error)

end OrderedInput

def orderedInput : Transducer OrderedInput InputArrival HandedOn where
  step input arrival := ((input.accept arrival).1, (input.accept arrival).2.1)

/-- The packet that arrived first under a sequence. -/
def firstArrived (arrivals : List InputArrival) (sequence : Nat) : Option InputPacket :=
  (arrivals.find? fun arrival => arrival.sequence = sequence).map (·.packet)

/-- What was handed on: the sequences from 0, each once, with the packet that came first. -/
structure HandedInOrder (arrivals : List InputArrival) (handed : List HandedOn) : Prop where
  sequences : handed.map (·.1) = List.range handed.length
  firsts : ∀ entry ∈ handed, firstArrived arrivals entry.1 = some entry.2

structure InputBooks (arrivals : List InputArrival) (input : OrderedInput) (handed : List HandedOn) :
    Prop where
  inOrder : HandedInOrder arrivals handed
  next : handed.length = input.next
  waiting : ∀ entry ∈ input.pending, input.next ≤ entry.1
  firsts : ∀ entry ∈ input.pending, firstArrived arrivals entry.1 = some entry.2
  keys : (input.pending.map (·.1)).Nodup
  known : ∀ arrival ∈ arrivals, arrival.sequence < input.next ∨
    arrival.sequence ∈ input.pending.map (·.1)
  bytes : input.pendingBytes = sumOfBytes input.pending
  bounded : input.pendingBytes ≤ maxPendingBytes

variable {sequence : Nat} {packet : InputPacket} {pending : List (Nat × InputPacket)}

theorem lookup_mem (found : pending.lookup sequence = some packet) :
    (sequence, packet) ∈ pending := by
  induction pending with
  | nil => exact nomatch found
  | cons entry pending ih =>
    obtain ⟨key, value⟩ := entry
    rw [lookup_cons] at found
    split at found
    next same =>
      obtain rfl := beq_iff_eq.mp same
      obtain rfl := Option.some.inj found
      exact mem_cons_self
    next => exact mem_cons_of_mem _ (ih found)

theorem lookup_isSome_iff :
    (pending.lookup sequence).isSome = true ↔ sequence ∈ pending.map (·.1) := by
  induction pending with
  | nil => simp
  | cons entry pending ih =>
    obtain ⟨key, value⟩ := entry
    rw [lookup_cons, map_cons, mem_cons, ← ih]
    split
    next same => simp [beq_iff_eq.mp same]
    next other => simp [show sequence ≠ key by simpa using other]

theorem sumOfBytes_remove (keys : (pending.map (·.1)).Nodup) (mem : (sequence, packet) ∈ pending) :
    sumOfBytes pending = packet.bytes +
      sumOfBytes (pending.filter fun entry => entry.1 ≠ sequence) := by
  induction pending with
  | nil => exact absurd mem not_mem_nil
  | cons entry pending ih =>
    obtain ⟨fresh, keys⟩ := nodup_cons.mp keys
    obtain rfl | mem := mem_cons.mp mem
    · have others : pending.filter (fun entry => entry.1 ≠ sequence) = pending := by
        apply filter_eq_self.mpr
        intro entry inside
        have other : entry.1 ≠ sequence := fun same =>
          fresh (mem_map.mpr ⟨entry, inside, same⟩)
        simpa using other
      rw [filter_cons_of_neg (by simp), others]
      simp [sumOfBytes]
    · have other : entry.1 ≠ sequence := by
        rintro rfl
        exact fresh (mem_map.mpr ⟨_, mem, rfl⟩)
      have rest := ih keys mem
      simp only [sumOfBytes] at rest
      simp [sumOfBytes, other, rest]
      omega

variable {arrivals : List InputArrival} {input : OrderedInput}

theorem InputBooks.handed {handed : List HandedOn} (books : InputBooks arrivals input handed)
    (found : input.pending.lookup input.next = some packet) :
    InputBooks arrivals
      { input with
        pending := input.pending.filter fun entry => entry.1 ≠ input.next
        pendingBytes := input.pendingBytes - packet.bytes
        next := input.next + 1 }
      (handed ++ [(input.next, packet)]) := by
  have mem := lookup_mem found
  have removed := sumOfBytes_remove books.keys mem
  refine ⟨⟨?_, ?_⟩, ?_, ?_, ?_, ?_, ?_, ?_, ?_⟩
  · simp [books.inOrder.sequences, range_succ, books.next]
  · intro entry inside
    obtain inside | inside := mem_append.mp inside
    · exact books.inOrder.firsts entry inside
    · obtain rfl := mem_singleton.mp inside
      exact books.firsts _ mem
  · simp [books.next]
  · intro entry inside
    obtain ⟨inside, other⟩ := mem_filter.mp inside
    have waiting := books.waiting entry inside
    have other : entry.1 ≠ input.next := by simpa using other
    show input.next + 1 ≤ entry.1
    omega
  · exact fun entry inside => books.firsts entry (mem_filter.mp inside).1
  · exact books.keys.sublist (filter_sublist.map _)
  · intro arrival arrived
    obtain before | waiting := books.known arrival arrived
    · exact .inl (Nat.lt_succ_of_lt before)
    · by_cases same : arrival.sequence = input.next
      · exact .inl (by simp [same])
      · right
        obtain ⟨entry, inside, key⟩ := mem_map.mp waiting
        exact mem_map.mpr ⟨entry, mem_filter.mpr ⟨inside, by simp [key, same]⟩, key⟩
  · have bytes := books.bytes
    show input.pendingBytes - packet.bytes =
      sumOfBytes (input.pending.filter fun entry => entry.1 ≠ input.next)
    omega
  · exact Nat.le_trans (Nat.sub_le _ _) books.bounded

theorem filter_length_lt (mem : (sequence, packet) ∈ pending) :
    (pending.filter fun entry => entry.1 ≠ sequence).length < pending.length :=
  length_filter_lt_length_iff_exists.mpr ⟨_, mem, by simp⟩

variable (enqueue : Nat → Except String Unit)

theorem handOn_books {fuel : Nat} {handed : List HandedOn}
    (books : InputBooks arrivals input handed) (enough : input.pending.length ≤ fuel) :
    HandedInOrder arrivals (handed ++ (input.handOn enqueue fuel).2.1) ∧
      ((input.handOn enqueue fuel).2.2 = .ok () →
        InputBooks arrivals (input.handOn enqueue fuel).1
            (handed ++ (input.handOn enqueue fuel).2.1) ∧
          (input.handOn enqueue fuel).1.failed = input.failed ∧
          (input.handOn enqueue fuel).1.pending.lookup (input.handOn enqueue fuel).1.next = none) := by
  induction fuel generalizing input handed with
  | zero =>
    have empty : input.pending = [] := length_eq_zero_iff.mp (Nat.le_zero.mp enough)
    rw [handOn, append_nil]
    exact ⟨books.inOrder, fun _ => ⟨books, rfl, by rw [empty]; rfl⟩⟩
  | succ fuel ih =>
    rw [handOn]
    split
    next none =>
      rw [append_nil]
      exact ⟨books.inOrder, fun _ => ⟨books, rfl, none⟩⟩
    next packet found =>
      have kept := books.handed found
      split
      next error refused => exact ⟨kept.inOrder, fun ok => nomatch ok⟩
      next =>
        have fewer := filter_length_lt (lookup_mem found)
        have later := ih kept (by show (input.pending.filter _).length ≤ fuel; omega)
        simpa [append_assoc] using later

theorem firstArrived_append (first : firstArrived arrivals sequence = some packet)
    (arrival : InputArrival) : firstArrived (arrivals ++ [arrival]) sequence = some packet := by
  obtain ⟨found, here, rfl⟩ := Option.map_eq_some_iff.mp first
  rw [firstArrived, find?_append, here]
  rfl

variable {arrival : InputArrival}

theorem firstArrived_new (fresh : ∀ earlier ∈ arrivals, earlier.sequence ≠ arrival.sequence) :
    firstArrived (arrivals ++ [arrival]) arrival.sequence = some arrival.packet := by
  have none : arrivals.find? (fun earlier => earlier.sequence = arrival.sequence) = none := by
    rw [find?_eq_none]
    intro earlier mem
    simpa using fresh earlier mem
  simp [firstArrived, find?_append, none]

theorem HandedInOrder.append {handed : List HandedOn} (inOrder : HandedInOrder arrivals handed)
    (arrival : InputArrival) : HandedInOrder (arrivals ++ [arrival]) handed :=
  ⟨inOrder.sequences, fun entry mem => firstArrived_append (inOrder.firsts entry mem) arrival⟩

structure InputInvariant (arrivals : List InputArrival) (input : OrderedInput)
    (handed : List HandedOn) : Prop where
  inOrder : HandedInOrder arrivals handed
  cleared : input.failed = true → input.pending = [] ∧ input.pendingBytes = 0
  books : input.failed = false → InputBooks arrivals input handed ∧
    input.pending.lookup input.next = none

open InputInvariant

theorem accept_failed (failed : input.failed = true) (arrival : InputArrival) :
    (input.accept arrival).2.1 = [] ∧ (input.accept arrival).1.failed = true := by
  simp [accept, acceptInner, failed]

theorem InputBooks.buffer {handed : List HandedOn} (books : InputBooks arrivals input handed)
    (ahead : input.next ≤ arrival.sequence) (absent : arrival.sequence ∉ input.pending.map (·.1))
    (room : input.pendingBytes + arrival.packet.bytes ≤ maxPendingBytes) :
    InputBooks (arrivals ++ [arrival])
      { input with
        pending := (arrival.sequence, arrival.packet) :: input.pending
        pendingBytes := input.pendingBytes + arrival.packet.bytes } handed := by
  have fresh : ∀ earlier ∈ arrivals, earlier.sequence ≠ arrival.sequence := by
    intro earlier mem same
    obtain before | waiting := books.known earlier mem
    · omega
    · exact absent (same ▸ waiting)
  refine ⟨books.inOrder.append arrival, books.next, ?_, ?_, ?_, ?_, ?_, room⟩
  · exact forall_mem_cons.mpr ⟨ahead, books.waiting⟩
  · refine forall_mem_cons.mpr ⟨firstArrived_new fresh, ?_⟩
    exact fun entry mem => firstArrived_append (books.firsts entry mem) arrival
  · exact nodup_cons.mpr ⟨absent, books.keys⟩
  · intro earlier mem
    obtain mem | mem := mem_append.mp mem
    · exact (books.known earlier mem).imp_right (mem_cons_of_mem _)
    · obtain rfl := mem_singleton.mp mem
      exact .inr mem_cons_self
  · have bytes := books.bytes
    simp only [sumOfBytes] at bytes
    simp [sumOfBytes, bytes]
    omega

theorem InputBooks.repeated {handed : List HandedOn} (books : InputBooks arrivals input handed)
    (seen : arrival.sequence < input.next ∨ arrival.sequence ∈ input.pending.map (·.1)) :
    InputBooks (arrivals ++ [arrival]) input handed := by
  refine ⟨books.inOrder.append arrival, books.next, books.waiting, ?_, books.keys, ?_, books.bytes,
    books.bounded⟩
  · exact fun entry mem => firstArrived_append (books.firsts entry mem) arrival
  · intro earlier mem
    obtain mem | mem := mem_append.mp mem
    · exact books.known earlier mem
    · obtain rfl := mem_singleton.mp mem
      exact seen

theorem acceptInner_cases (live : input.failed = false) (arrival : InputArrival) :
    ((arrival.sequence < input.next ∨ arrival.sequence ∈ input.pending.map (·.1)) ∧
      input.acceptInner arrival = (input, [], .ok ())) ∨
    (input.exceedsLimits arrival.sequence arrival.packet = true ∧
      input.acceptInner arrival = (input, [], .error inputLimitExceeded)) ∨
    (input.next ≤ arrival.sequence ∧ arrival.sequence ∉ input.pending.map (·.1) ∧
      input.pendingBytes + arrival.packet.bytes ≤ maxPendingBytes ∧
      input.acceptInner arrival = handOn arrival.enqueue (input.pending.length + 1)
        { input with
          pending := (arrival.sequence, arrival.packet) :: input.pending
          pendingBytes := input.pendingBytes + arrival.packet.bytes }) := by
  rw [acceptInner, if_neg (by simp [live])]
  split
  next seen => exact .inl ⟨seen.imp_right lookup_isSome_iff.mp, rfl⟩
  next unseen =>
    split
    next full => exact .inr (.inl ⟨full, rfl⟩)
    next within =>
      simp only [lookup_isSome_iff, not_or, Nat.not_lt] at unseen
      simp only [exceedsLimits, Bool.or_eq_true, decide_eq_true_eq, not_or,
        Nat.not_lt] at within
      exact .inr (.inr ⟨unseen.1, unseen.2, within.2, rfl⟩)

theorem accept_ok {input after : OrderedInput} {handed : List HandedOn}
    (inner : input.acceptInner arrival = (after, handed, .ok ())) :
    input.accept arrival = (after, handed, .ok ()) := by
  rw [accept, inner]

theorem accept_error {input after : OrderedInput} {handed : List HandedOn} {error : String}
    (inner : input.acceptInner arrival = (after, handed, .error error)) :
    input.accept arrival =
      ({ after with failed := true, pending := [], pendingBytes := 0 }, handed, .error error) := by
  rw [accept, inner]

theorem InputInvariant.fails {handed : List HandedOn} (inOrder : HandedInOrder arrivals handed) :
    InputInvariant arrivals { input with failed := true, pending := [], pendingBytes := 0 } handed :=
  ⟨inOrder, fun _ => ⟨rfl, rfl⟩, fun live => nomatch live⟩

theorem accept_invariant {handed : List HandedOn} (invariant : InputInvariant arrivals input handed)
    (arrival : InputArrival) :
    InputInvariant (arrivals ++ [arrival]) (input.accept arrival).1
      (handed ++ (input.accept arrival).2.1) := by
  cases failed : input.failed with
  | true =>
    have inner : input.acceptInner arrival = (input, [], .error inputChannelFailed) := by
      rw [acceptInner, if_pos failed]
    rw [accept_error inner, append_nil]
    exact fails (invariant.inOrder.append arrival)
  | false =>
    obtain ⟨books, drained⟩ := invariant.books failed
    obtain ⟨seen, inner⟩ | ⟨-, inner⟩ | ⟨ahead, absent, room, inner⟩ := acceptInner_cases failed arrival
    · rw [accept_ok inner, append_nil]
      refine ⟨invariant.inOrder.append arrival, invariant.cleared, fun _ => ?_⟩
      exact ⟨books.repeated seen, drained⟩
    · rw [accept_error inner, append_nil]
      exact fails (invariant.inOrder.append arrival)
    · have buffered := books.buffer ahead absent room
      obtain ⟨inOrder, ended⟩ := handOn_books arrival.enqueue buffered (Nat.le_refl _)
      rw [length_cons, ← inner] at inOrder ended
      cases outcome : input.acceptInner arrival with
      | mk after rest =>
        obtain ⟨more, result⟩ := rest
        rw [outcome] at inOrder ended
        cases result with
        | error error =>
          rw [accept_error outcome]
          exact fails inOrder
        | ok =>
          obtain ⟨kept, still, nothing⟩ := ended rfl
          rw [accept_ok outcome]
          refine ⟨inOrder, fun dead => ?_, fun _ => ⟨kept, nothing⟩⟩
          have live : after.failed = false := still.trans failed
          rw [live] at dead
          exact nomatch dead

theorem orderedInput_invariant (arrivals : List InputArrival) :
    InputInvariant arrivals (orderedInput.run {} arrivals).1 (orderedInput.run {} arrivals).2 := by
  induction arrivals using List.reverseRecOn with
  | nil =>
    refine ⟨⟨rfl, by simp⟩, fun failed => (nomatch failed), fun _ => ⟨?_, rfl⟩⟩
    exact ⟨⟨rfl, by simp⟩, rfl, by simp, by simp, nodup_nil, by simp, rfl, Nat.zero_le _⟩
  | append_singleton arrivals arrival ih =>
    have next := accept_invariant ih arrival
    rw [Transducer.run_append]
    simpa [orderedInput] using next

theorem InputBooks.next_missing {handed : List HandedOn} (books : InputBooks arrivals input handed)
    (drained : input.pending.lookup input.next = none) :
    firstArrived arrivals handed.length = none := by
  refine Option.map_eq_none_iff.mpr (find?_eq_none.mpr fun arrival arrived same => ?_)
  have same : arrival.sequence = input.next := by simpa [books.next] using same
  obtain before | waiting := books.known arrival arrived
  · omega
  · have known := lookup_isSome_iff.mpr (same ▸ waiting)
    rw [drained] at known
    cases known

theorem handOn_error {enqueue : Nat → Except String Unit} {fuel : Nat} {error : String}
    (failed : (input.handOn enqueue fuel).2.2 = .error error) :
    ∃ sequence, enqueue sequence = .error error := by
  induction fuel generalizing input with
  | zero => cases failed
  | succ fuel ih =>
    rw [handOn] at failed
    split at failed
    next => cases failed
    next packet found =>
      split at failed
      next refused error' =>
        cases failed
        exact ⟨_, error'⟩
      next => exact ih failed

theorem handOn_failed (fuel : Nat) : (input.handOn enqueue fuel).1.failed = input.failed := by
  induction fuel generalizing input with
  | zero => rfl
  | succ fuel ih =>
    rw [handOn]
    split
    next => rfl
    next packet found =>
      dsimp only
      split
      next => rfl
      next => exact ih

/-- A stream fails for a reason: a packet that exceeds the limits, or one that is refused. -/
theorem accept_fails (live : input.failed = false)
    (failed : (input.accept arrival).1.failed = true) :
    input.exceedsLimits arrival.sequence arrival.packet = true ∨
      ∃ sequence error, arrival.enqueue sequence = .error error := by
  obtain ⟨-, inner⟩ | ⟨full, -⟩ | ⟨-, -, -, inner⟩ := acceptInner_cases live arrival
  · rw [accept_ok inner, live] at failed
    cases failed
  · exact .inl full
  · cases result : (input.acceptInner arrival).2.2 with
    | error error =>
      rw [inner] at result
      obtain ⟨sequence, refused⟩ := handOn_error result
      exact .inr ⟨sequence, error, refused⟩
    | ok =>
      have kept : input.accept arrival = (_, _, .ok ()) :=
        accept_ok (Prod.ext rfl (Prod.ext rfl result))
      rw [kept, inner, handOn_failed, live] at failed
      cases failed

theorem failed_stays (failed : input.failed = true) (more : List InputArrival) :
    (orderedInput.run input more).2 = [] := by
  induction more generalizing input with
  | nil => rfl
  | cons arrival more ih =>
    obtain ⟨quiet, still⟩ := accept_failed failed arrival
    rw [Transducer.run_cons]
    simp [orderedInput, quiet]
    exact ih still

/-- Whatever comes in, in whatever order and how often, what is handed on are the packets
that came first under 0, 1, 2, …, each once; the bytes on the books are those of the
buffered packets, and after a failure nothing is handed on any more. A stream that has not failed
has handed on all that is next in line, and it fails only on a packet that exceeds the limits or is
refused. -/
theorem input_handed_on_in_order (arrivals more : List InputArrival) :
    (orderedInput.run {} arrivals).2.map (·.1) =
        List.range (orderedInput.run {} arrivals).2.length ∧
      (∀ entry ∈ (orderedInput.run {} arrivals).2,
        firstArrived arrivals entry.1 = some entry.2) ∧
      (orderedInput.run {} arrivals).1.pendingBytes =
        sumOfBytes (orderedInput.run {} arrivals).1.pending ∧
      (orderedInput.run {} arrivals).1.pendingBytes ≤ maxPendingBytes ∧
      ((orderedInput.run {} arrivals).1.failed = true →
        (orderedInput.run {} (arrivals ++ more)).2 = (orderedInput.run {} arrivals).2) ∧
      ((orderedInput.run {} arrivals).1.failed = false →
        firstArrived arrivals (orderedInput.run {} arrivals).2.length = none ∧
        ∀ arrival : InputArrival,
          ((orderedInput.run {} arrivals).1.accept arrival).1.failed = true →
            (orderedInput.run {} arrivals).1.exceedsLimits arrival.sequence arrival.packet = true ∨
            ∃ sequence error, arrival.enqueue sequence = .error error) := by
  have invariant := orderedInput_invariant arrivals
  have bytes : (orderedInput.run {} arrivals).1.pendingBytes =
        sumOfBytes (orderedInput.run {} arrivals).1.pending ∧
      (orderedInput.run {} arrivals).1.pendingBytes ≤ maxPendingBytes := by
    cases failed : (orderedInput.run {} arrivals).1.failed with
    | true =>
      obtain ⟨empty, none⟩ := invariant.cleared failed
      rw [empty, none]
      exact ⟨rfl, Nat.zero_le _⟩
    | false =>
      obtain ⟨books, -⟩ := invariant.books failed
      exact ⟨books.bytes, books.bounded⟩
  refine ⟨invariant.inOrder.sequences, invariant.inOrder.firsts, bytes.1, bytes.2, fun failed => ?_,
    fun live => ?_⟩
  · rw [Transducer.run_append, failed_stays failed, append_nil]
  · obtain ⟨books, drained⟩ := invariant.books live
    exact ⟨books.next_missing drained, fun arrival => accept_fails live⟩

/-- Packets 1, 0, 0 again and 3: two are handed on, and 3 waits for the one that is missing. -/
def shuffledArrivals : List InputArrival :=
  [(1, "b"), (0, "a"), (0, "x"), (3, "d")].map fun entry =>
    { sequence := entry.1, packet := ⟨entry.2, true, false⟩, enqueue := fun _ => .ok () }

theorem shuffled_input_handed_on :
    (orderedInput.run {} shuffledArrivals).2.map (fun entry => (entry.1, entry.2.text)) =
        [(0, "a"), (1, "b")] ∧
      firstArrived shuffledArrivals 2 = none :=
  ⟨by decide, ((input_handed_on_in_order shuffledArrivals []).2.2.2.2.2 (by decide)).1⟩

end PortMate
