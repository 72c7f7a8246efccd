import PortMate.SystemEvents

namespace PortMate

open List SystemEventSinkState

/-- Where the thread of the sink is; `final`: it returns once the outbox is empty. -/
inductive SystemEventPhase
  | top
  | waiting
  | draining (final : Bool)
  | publishing (final : Bool) (events : List SystemEventEnvelope)
  | stopped
  deriving DecidableEq

open SystemEventPhase

namespace SystemEventPhase

def inHand : SystemEventPhase → List SystemEventEnvelope
  | publishing _ events => events
  | _ => []

def busy : SystemEventPhase → Prop
  | draining _ | publishing _ _ => True
  | _ => False

def last : SystemEventPhase → Prop
  | draining final | publishing final _ => final = true
  | stopped => True
  | _ => False

end SystemEventPhase

/-- The sink with its thread. `wakeup` is the channel with room for one message, `shutdown` the
message of the guard, `closing` says that the guard has begun; the lists are what became of events. -/
structure SystemEventRelay where
  sink : SystemEventSinkState := ⟨.inactive, []⟩
  installed : Bool := false
  closing : Bool := false
  shutdown : Bool := false
  wakeup : Bool := false
  phase : SystemEventPhase := .top
  accepted : List SystemEventEnvelope := []
  published : List SystemEventEnvelope := []
  discarded : List SystemEventEnvelope := []

inductive SystemEventStep
  | setNotifier
  | record (event : SessionEvent) (profile : Option SessionProfile)
  | discardSession (sessionId : String)
  | discardEvent (eventId : String)
  | clearNotifier
  | sendShutdown
  | worker (timeout : Bool)

namespace SystemEventRelay

def trySend (relay : SystemEventRelay) : TrySend :=
  if relay.phase = .stopped then .disconnected else if relay.wakeup then .full else .sent

/-- The sender is with the installer and then with the active sink. -/
def connected (relay : SystemEventRelay) : Bool :=
  !relay.installed || relay.sink.status = .active

def setNotifier (relay : SystemEventRelay) : SystemEventRelay :=
  { relay with
    sink := (relay.sink.setNotifier relay.trySend).2
    installed := true
    wakeup := relay.wakeup || !relay.sink.outbox.isEmpty }

def record (relay : SystemEventRelay) (event : SessionEvent) (profile : Option SessionProfile) :
    SystemEventRelay :=
  let new := relay.sink.accepted relay.trySend event profile
  { relay with
    sink := (relay.sink.enqueue relay.trySend event profile).2
    wakeup := relay.wakeup || !new.isEmpty
    accepted := relay.accepted ++ new }

/-- A sink that has lost the envelopes that do not stay. -/
def discard (relay : SystemEventRelay) (sink : SystemEventSinkState)
    (stays : SystemEventEnvelope → Bool) : SystemEventRelay :=
  { relay with
    sink
    discarded := relay.discarded ++ relay.sink.outbox.filter fun envelope => !stays envelope }

/-- The loops of `run_system_event_sink` and of `drain_system_event_outbox`. -/
def worker (relay : SystemEventRelay) (timeout : Bool) : SystemEventRelay :=
  match relay.phase with
  | .top =>
    if relay.shutdown then { relay with phase := .draining true }
    else { relay with phase := .waiting }
  | .waiting =>
    if relay.wakeup then { relay with wakeup := false, phase := .draining false }
    else if !relay.connected then { relay with phase := .draining true }
    else if timeout then { relay with phase := .top }
    else relay
  | .draining final =>
    match relay.sink.drain with
    | ([], _) => { relay with phase := if final then .stopped else .top }
    | (events, sink) => { relay with sink, phase := .publishing final events }
  | .publishing final [] => { relay with phase := .draining final }
  | .publishing final (event :: rest) =>
    { relay with phase := .publishing final rest, published := relay.published ++ [event] }
  | .stopped => relay

def step (relay : SystemEventRelay) : SystemEventStep → SystemEventRelay
  | .setNotifier => if relay.installed || relay.closing then relay else relay.setNotifier
  | .record event profile => relay.record event profile
  | .discardSession sessionId =>
    relay.discard (relay.sink.discardSession sessionId) fun envelope =>
      envelope.1.sessionId ≠ sessionId
  | .discardEvent eventId =>
    relay.discard (relay.sink.discardEvent eventId) fun envelope => envelope.1.id ≠ eventId
  | .clearNotifier => { relay with sink := relay.sink.clearNotifier, closing := true }
  | .sendShutdown => { relay with shutdown := relay.closing }
  | .worker timeout => relay.worker timeout

def run (relay : SystemEventRelay) (steps : List SystemEventStep) : SystemEventRelay :=
  steps.foldl step relay

/-- What was accepted and not discarded, in its order. -/
def pending (relay : SystemEventRelay) : List SystemEventEnvelope :=
  relay.published ++ relay.phase.inHand ++ relay.sink.outbox

structure Sound (relay : SystemEventRelay) : Prop where
  order : relay.pending.Sublist relay.accepted
  complete : (relay.pending ++ relay.discarded).Perm relay.accepted
  bounded : relay.sink.outbox.length ≤ maxSystemEventOutbox
  healthy : ∀ error, relay.sink.status ≠ .failed error
  woken : relay.sink.outbox ≠ [] → relay.wakeup = true ∨ relay.phase.busy
  closing : relay.closing = true → relay.sink.status ≠ .active
  shutdown : relay.shutdown = true → relay.closing = true
  last : relay.phase.last → (relay.installed || relay.closing) = true ∧ relay.sink.status ≠ .active
  stopped : relay.phase = .stopped → relay.sink.outbox = []

variable {relay : SystemEventRelay}

theorem initial_sound : ({} : SystemEventRelay).Sound where
  order := List.Sublist.refl _
  complete := List.Perm.refl _
  bounded := Nat.zero_le _
  healthy := nofun
  woken := fun filled => absurd rfl filled
  closing := nofun
  shutdown := nofun
  last := nofun
  stopped := nofun

theorem Sound.running (sound : relay.Sound)
    (here : (relay.installed || relay.closing) = false ∨ relay.sink.status = .active) :
    ¬relay.phase.last := by
  intro last
  obtain ⟨begun, silent⟩ := sound.last last
  rcases here with early | active
  · rw [early] at begun
    cases begun
  · exact silent active

theorem Sound.trySend_ne (sound : relay.Sound)
    (here : (relay.installed || relay.closing) = false ∨ relay.sink.status = .active) :
    relay.trySend ≠ .disconnected := by
  have running : relay.phase ≠ .stopped := by
    intro stopped
    apply sound.running here
    rw [stopped]
    trivial
  unfold trySend
  rw [if_neg running]
  split <;> nofun

theorem Sound.setNotifier (sound : relay.Sound)
    (early : (relay.installed || relay.closing) = false) : relay.setNotifier.Sound := by
  have sink : (relay.sink.setNotifier relay.trySend).2 = { relay.sink with status := .active } := by
    unfold SystemEventSinkState.setNotifier
    rw [if_neg (by simp [sound.trySend_ne (.inl early)])]
  have unclosed : relay.closing = false := (Bool.or_eq_false_iff.mp early).2
  unfold SystemEventRelay.setNotifier
  rw [sink]
  refine ⟨sound.order, sound.complete, sound.bounded, nofun, fun filled => ?_, fun closed => ?_,
    sound.shutdown, fun last => absurd last (sound.running (.inl early)), sound.stopped⟩
  · left
    simp [filled]
  · exact absurd (unclosed.symm.trans closed) (by decide)

/-- An event is taken in by an active sink alone, which it stays as long as the thread lives. -/
theorem enqueue_silent {sink : SystemEventSinkState} {answer : TrySend} (event : SessionEvent)
    (profile : Option SessionProfile) :
    (sink.status ≠ .active → (sink.enqueue answer event profile).2 = sink) ∧
      (answer ≠ .disconnected → (sink.enqueue answer event profile).2.status = sink.status) := by
  unfold enqueue
  cases status : sink.status with
  | inactive => exact ⟨fun _ => rfl, fun _ => status⟩
  | failed error => exact ⟨fun _ => rfl, fun _ => status⟩
  | active =>
    refine ⟨fun silent => absurd rfl silent, fun alive => ?_⟩
    dsimp only
    split
    · exact status
    · cases answer with
      | disconnected => exact absurd rfl alive
      | sent => rfl
      | full => rfl

theorem Sound.record (sound : relay.Sound) (event : SessionEvent)
    (profile : Option SessionProfile) : (relay.record event profile).Sound := by
  have outbox := relay.sink.enqueue_outbox relay.trySend event profile
  have silent := (@enqueue_silent relay.sink relay.trySend event profile).1
  have status : (relay.sink.enqueue relay.trySend event profile).2.status = relay.sink.status := by
    by_cases active : relay.sink.status = .active
    · exact (enqueue_silent event profile).2 (sound.trySend_ne (.inr active))
    · rw [silent active]
  have bounded := enqueue_outbox_length_le sound.bounded relay.trySend event
    profile
  unfold SystemEventRelay.record
  generalize relay.sink.accepted relay.trySend event profile = new at outbox
  refine ⟨?_, ?_, bounded, fun error => status ▸ sound.healthy error, fun filled => ?_,
    fun closed => status ▸ sound.closing closed, sound.shutdown,
    fun last => ⟨(sound.last last).1, status ▸ (sound.last last).2⟩, fun stopped => ?_⟩
  · simp only [pending, outbox, ← append_assoc]
    exact sound.order.append_right new
  · rw [perm_iff_count]
    intro envelope
    have complete := sound.complete.count_eq envelope
    simp only [pending, outbox, count_append] at complete ⊢
    omega
  · dsimp only at filled
    cases new with
    | nil =>
      rw [outbox, append_nil] at filled
      simpa using sound.woken filled
    | cons first rest =>
      left
      simp
  · have quiet := (sound.last (by dsimp only at stopped; rw [stopped]; trivial)).2
    dsimp only
    rw [silent quiet]
    exact sound.stopped stopped

theorem Sound.discard (sound : relay.Sound) {sink : SystemEventSinkState}
    {stays : SystemEventEnvelope → Bool} (status : sink.status = relay.sink.status)
    (outbox : sink.outbox = relay.sink.outbox.filter stays) : (relay.discard sink stays).Sound := by
  have part : sink.outbox.Sublist relay.sink.outbox := outbox ▸ filter_sublist
  refine ⟨(part.append_left _).trans sound.order, ?_, Nat.le_trans part.length_le sound.bounded,
    fun error => status ▸ sound.healthy error, fun filled => sound.woken fun empty => ?_,
    fun closed => status ▸ sound.closing closed, sound.shutdown,
    fun last => ⟨(sound.last last).1, status ▸ (sound.last last).2⟩, fun stopped => ?_⟩
  · rw [perm_iff_count]
    intro envelope
    have complete := sound.complete.count_eq envelope
    have halves := (filter_append_perm stays relay.sink.outbox).count_eq envelope
    simp only [pending, SystemEventRelay.discard, outbox, count_append] at complete halves ⊢
    omega
  · exact filled (eq_nil_of_sublist_nil (empty ▸ part))
  · exact eq_nil_of_sublist_nil (sound.stopped stopped ▸ part)

theorem Sound.moves (sound : relay.Sound) {phase : SystemEventPhase} {wakeup : Bool}
    (hand : phase.inHand = relay.phase.inHand)
    (woken : relay.sink.outbox ≠ [] → wakeup = true ∨ phase.busy)
    (last : phase.last → (relay.installed || relay.closing) = true ∧ relay.sink.status ≠ .active)
    (stopped : phase = .stopped → relay.sink.outbox = []) :
    Sound { relay with phase, wakeup } := by
  have order := sound.order
  have complete := sound.complete
  simp only [pending, ← hand] at order complete
  exact ⟨order, complete, sound.bounded, sound.healthy, woken, sound.closing, sound.shutdown, last,
    stopped⟩

theorem Sound.worker (sound : relay.Sound) (timeout : Bool) : (relay.worker timeout).Sound := by
  have order := sound.order
  have complete := sound.complete
  have woken := sound.woken
  have last := sound.last
  unfold SystemEventRelay.worker
  split
  next here =>
    have hand : relay.phase.inHand = [] := by rw [here]; rfl
    simp only [here] at woken
    split
    next asked =>
      have closed := sound.shutdown asked
      exact sound.moves hand.symm (fun _ => .inr trivial)
        (fun _ => ⟨by simp [closed], sound.closing closed⟩) nofun
    next => exact sound.moves hand.symm woken nofun nofun
  next here =>
    have hand : relay.phase.inHand = [] := by rw [here]; rfl
    simp only [here] at woken
    split
    · exact sound.moves hand.symm (fun _ => .inr trivial) nofun nofun
    · split
      next parted =>
        have parted : relay.installed = true ∧ relay.sink.status ≠ .active := by
          simpa [connected] using parted
        exact sound.moves hand.symm (fun _ => .inr trivial)
          (fun _ => ⟨by simp [parted.1], parted.2⟩) nofun
      · split
        · exact sound.moves hand.symm woken nofun nofun
        · exact sound
  next final here =>
    have rest : final = true → (relay.installed || relay.closing) = true ∧
        relay.sink.status ≠ .active := fun own => last (by rw [here]; exact own)
    split
    next sink taken =>
      have empty : relay.sink.outbox = [] := congrArg Prod.fst taken
      refine sound.moves ?_ (fun filled => absurd empty filled) ?_ fun _ => empty
      · cases final <;> simp [here, inHand]
      · cases final with
        | false => nofun
        | true => exact fun _ => rest rfl
    next events sink some taken =>
      obtain ⟨rfl, rfl⟩ := Prod.mk.inj taken
      simp only [pending, here, inHand] at order complete
      refine ⟨?_, ?_, Nat.zero_le _, sound.healthy, fun filled => absurd rfl filled, sound.closing,
        sound.shutdown, rest, nofun⟩
      · simpa [pending, inHand] using order
      · simpa [pending, inHand] using complete
  next final here =>
    exact sound.moves (by rw [here]; rfl) (fun _ => .inr trivial)
      (fun own => last (by rw [here]; exact own)) nofun
  next final event rest here =>
    simp only [pending, here, inHand] at order complete
    refine ⟨?_, ?_, sound.bounded, sound.healthy, fun _ => .inr trivial, sound.closing,
      sound.shutdown, fun own => last (by rw [here]; exact own), nofun⟩
    · simpa [pending, inHand] using order
    · simpa [pending, inHand] using complete
  next => exact sound

theorem step_sound (sound : relay.Sound) (step : SystemEventStep) : (relay.step step).Sound := by
  cases step with
  | setNotifier =>
    rw [SystemEventRelay.step]
    split
    · exact sound
    next early => exact sound.setNotifier (Bool.not_eq_true _ ▸ early)
  | record event profile => exact sound.record event profile
  | discardSession sessionId => exact sound.discard rfl rfl
  | discardEvent eventId => exact sound.discard rfl rfl
  | clearNotifier =>
    exact ⟨sound.order, sound.complete, sound.bounded, nofun, sound.woken, nofun, fun _ => rfl,
      fun _ => ⟨Bool.or_true _, nofun⟩, sound.stopped⟩
  | sendShutdown =>
    exact ⟨sound.order, sound.complete, sound.bounded, sound.healthy, sound.woken, sound.closing, id,
      sound.last, sound.stopped⟩
  | worker timeout => exact sound.worker timeout

theorem run_sound (steps : List SystemEventStep) (sound : relay.Sound) :
    (relay.run steps).Sound := by
  induction steps generalizing relay with
  | nil => exact sound
  | cons step steps ih => exact ih (step_sound sound step)

section Progress

/-- What the thread alone comes to after so many steps. -/
def left (relay : SystemEventRelay) (steps : Nat) : SystemEventRelay :=
  relay.run (List.replicate steps (.worker true))

theorem left_one : relay.left 1 = relay.worker true := rfl

theorem left_add (first second : Nat) : relay.left (first + second) = (relay.left first).left second := by
  rw [left, replicate_add, run, foldl_append]
  rfl

theorem publishing_left {final : Bool} {events : List SystemEventEnvelope}
    (here : relay.phase = .publishing final events) : relay.left (events.length + 1) =
      { relay with phase := .draining final, published := relay.published ++ events } := by
  induction events generalizing relay with
  | nil => simp [left, run, step, worker, here]
  | cons event rest ih =>
    have first : relay.left 1 = { relay with
        phase := .publishing final rest, published := relay.published ++ [event] } := by
      simp [left_one, worker.eq_def, here]
    rw [length_cons, Nat.add_comm (rest.length + 1) 1, left_add, first, ih rfl]
    simp

theorem draining_left {final : Bool} (here : relay.phase = .draining final) :
    ∃ steps, (relay.left steps).published = relay.published ++ relay.sink.outbox := by
  cases filled : relay.sink.outbox with
  | nil => exact ⟨0, (append_nil _).symm⟩
  | cons event rest =>
    have first : relay.left 1 = { relay with
        sink := { relay.sink with outbox := [] }, phase := .publishing final (event :: rest) } := by
      simp [left_one, worker.eq_def, here, drain, filled]
    refine ⟨1 + ((event :: rest).length + 1), ?_⟩
    rw [left_add, publishing_left (by rw [first]), first]

theorem Sound.waiting_left (sound : relay.Sound) (here : relay.phase = .waiting) :
    ∃ steps, (relay.left steps).published = relay.published ++ relay.sink.outbox := by
  by_cases filled : relay.sink.outbox = []
  · exact ⟨0, by simp [left, run, filled]⟩
  · have awake : relay.wakeup = true := by
      simpa [here, busy] using sound.woken filled
    have first : relay.left 1 = { relay with wakeup := false, phase := .draining false } := by
      simp [left_one, worker.eq_def, here, awake]
    obtain ⟨more, published⟩ := @draining_left (relay.left 1) _ (by rw [first])
    exact ⟨1 + more, by rw [left_add, published, first]⟩

/-- Left to itself, the thread publishes all that is pending. -/
theorem Sound.left_published (sound : relay.Sound) :
    ∃ steps, (relay.left steps).published = relay.pending := by
  unfold pending
  cases here : relay.phase with
  | draining final => simpa [inHand] using draining_left here
  | publishing final events =>
    obtain ⟨more, published⟩ := @draining_left (relay.left (events.length + 1)) _
      (by rw [publishing_left here])
    refine ⟨events.length + 1 + more, ?_⟩
    rw [left_add, published, publishing_left here]
    rfl
  | stopped => exact ⟨0, by simp [left, run, inHand, sound.stopped here]⟩
  | waiting => simpa [inHand] using sound.waiting_left here
  | top =>
    cases asked : relay.shutdown with
    | true =>
      have first : relay.left 1 = { relay with phase := .draining true } := by
        simp [left_one, worker.eq_def, here, asked]
      obtain ⟨more, published⟩ := @draining_left (relay.left 1) _ (by rw [first])
      exact ⟨1 + more, by rw [left_add, published, first]; simp [inHand]⟩
    | false =>
      have first : relay.left 1 = { relay with phase := .waiting } := by
        simp [left_one, worker.eq_def, here, asked]
      have after : (relay.left 1).Sound := run_sound _ sound
      obtain ⟨more, published⟩ := after.waiting_left (by rw [first])
      exact ⟨1 + more, by rw [left_add, published, first]; simp [inHand]⟩

end Progress

structure Kept (relay : SystemEventRelay) : Prop where
  order : relay.pending.Sublist relay.accepted
  complete : (relay.pending ++ relay.discarded).Perm relay.accepted
  bounded : relay.sink.outbox.length ≤ maxSystemEventOutbox
  healthy : ∀ error, relay.sink.status ≠ .failed error
  published : ∃ steps, (relay.left steps).published = relay.pending
  stopped : relay.phase = .stopped → (relay.published ++ relay.discarded).Perm relay.accepted

/-- However senders, closing sessions, the shutdown and the thread come between each other, every
event that was taken in is published once, in order, or withdrawn, and no wakeup is lost. -/
theorem system_events_published (steps : List SystemEventStep) :
    (({} : SystemEventRelay).run steps).Kept := by
  have sound := run_sound steps initial_sound
  refine ⟨sound.order, sound.complete, sound.bounded, sound.healthy, sound.left_published,
    fun stopped => ?_⟩
  have complete := sound.complete
  rw [pending, sound.stopped stopped, stopped] at complete
  simpa [inHand] using complete

end SystemEventRelay

end PortMate
