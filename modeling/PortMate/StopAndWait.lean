import PortMate.Transducer

namespace PortMate

open List Or

inductive Arrival (α : Type)
  | symbol (a : α)
  | timeout
  | interrupt (reason : String)

def Arrival.Alone {α : Type} : Arrival α → Prop
  | .symbol _ => False
  | _ => True

/-- A sender and a receiver joined by two FIFO channels. -/
structure Link (σ ρ α β : Type) where
  sender : σ
  receiver : ρ
  forward : List α
  backward : List β

namespace Link

variable {σ ρ α β : Type}

def sends (send : Transducer σ (Arrival β) α) (link : Link σ ρ α β) (arrival : Arrival β)
    (backward : List β) : Link σ ρ α β :=
  { link with
    sender := (send.step link.sender arrival).1
    forward := link.forward ++ (send.step link.sender arrival).2
    backward }

def receives (receive : Transducer ρ (Arrival α) β) (link : Link σ ρ α β) (arrival : Arrival α)
    (forward : List α) : Link σ ρ α β :=
  { link with
    receiver := (receive.step link.receiver arrival).1
    backward := link.backward ++ (receive.step link.receiver arrival).2
    forward }

/-- The runs over channels that neither lose nor corrupt. Timeouts and interruptions
come at any time, and once the sender has started, stray responses too. -/
inductive Run (send : Transducer σ (Arrival β) α) (receive : Transducer ρ (Arrival α) β)
    (started : σ → Prop) (stray : β → Prop) (start : Link σ ρ α β) : Link σ ρ α β → Prop
  | start : Run send receive started stray start start
  | respond {link : Link σ ρ α β} {b : β} {backward : List β}
      (run : Run send receive started stray start link) (next : link.backward = b :: backward) :
      Run send receive started stray start (link.sends send (.symbol b) backward)
  | sender {link : Link σ ρ α β} {arrival : Arrival β}
      (run : Run send receive started stray start link) (alone : arrival.Alone) :
      Run send receive started stray start (link.sends send arrival link.backward)
  | deliver {link : Link σ ρ α β} {a : α} {forward : List α}
      (run : Run send receive started stray start link) (next : link.forward = a :: forward) :
      Run send receive started stray start (link.receives receive (.symbol a) forward)
  | receiver {link : Link σ ρ α β} {arrival : Arrival α}
      (run : Run send receive started stray start link) (alone : arrival.Alone) :
      Run send receive started stray start (link.receives receive arrival link.forward)
  | stray {link : Link σ ρ α β} {b : β} {earlier later : List β}
      (run : Run send receive started stray start link) (underWay : started link.sender)
      (isStray : stray b) (backward : link.backward = earlier ++ later) :
      Run send receive started stray start { link with backward := earlier ++ b :: later }

section Progress

variable {send : Transducer σ (Arrival β) α} {receive : Transducer ρ (Arrival α) β}
  {started : σ → Prop} {stray : β → Prop} {start : Link σ ρ α β} {s s' : σ} {r r' : ρ}
  {forward sent : List α} {backward answered : List β}

theorem Run.responded {b : β} (run : Run send receive started stray start ⟨s, r, forward, b :: backward⟩)
    (step : send.step s (.symbol b) = (s', sent)) :
    Run send receive started stray start ⟨s', r, forward ++ sent, backward⟩ := by
  have next := run.respond rfl
  simpa only [sends, step] using next

theorem Run.delivered {symbols pending : List α}
    (run : Run send receive started stray start ⟨s, r, pending, backward⟩)
    (taken : receive.run r (symbols.map .symbol) = (r', answered))
    (next : pending = symbols ++ forward) :
    Run send receive started stray start ⟨s, r', forward, backward ++ answered⟩ := by
  subst next
  induction symbols generalizing r backward answered with
  | nil =>
    cases taken
    simpa using run
  | cons a symbols ih =>
    have first := run.deliver rfl
    simp only [receives] at first
    rw [map_cons, Transducer.run_cons] at taken
    cases taken
    have others := ih rfl first
    rwa [append_assoc] at others

end Progress

end Link

/-- Frame numbers on their way from a sender at `e` to a receiver at `d`: each is a
repetition of the one before or its successor. -/
inductive Walk : Nat → List Nat → Nat → Prop
  | nil (d : Nat) : Walk d [] d
  | again {d e : Nat} {queue : List Nat} (positive : 1 ≤ d) (walk : Walk d queue e) :
      Walk d (d :: queue) e
  | next {d e : Nat} {queue : List Nat} (walk : Walk (d + 1) queue e) :
      Walk d ((d + 1) :: queue) e

theorem Walk.le {d e : Nat} {queue : List Nat} (walk : Walk d queue e) : d ≤ e := by
  induction walk with
  | nil => exact Nat.le_refl _
  | again _ _ ih => exact ih
  | next _ ih => omega

theorem Walk.of_zero {d : Nat} {queue : List Nat} (walk : Walk d queue 0) :
    d = 0 ∧ queue = [] := by
  have bound := walk.le
  cases walk with
  | nil => exact ⟨rfl, rfl⟩
  | again positive => omega
  | next walk => exact absurd walk.le (by omega)

theorem Walk.append_again {d e : Nat} {queue : List Nat} (walk : Walk d queue e)
    (positive : 1 ≤ e) : Walk d (queue ++ [e]) e := by
  induction walk with
  | nil => exact .again positive (.nil _)
  | again h _ ih => exact .again h (ih positive)
  | next _ ih => exact .next (ih positive)

theorem Walk.append_next {d e : Nat} {queue : List Nat} (walk : Walk d queue e) :
    Walk d (queue ++ [e + 1]) (e + 1) := by
  induction walk with
  | nil => exact .next (.nil _)
  | again h _ ih => exact .again h ih
  | next _ ih => exact .next ih

theorem Walk.of_cons {d e i : Nat} {queue : List Nat} (walk : Walk d (i :: queue) e) :
    (i = d ∧ 1 ≤ d ∨ i = d + 1) ∧ Walk i queue e := by
  cases walk with
  | again positive walk => exact ⟨inl ⟨rfl, positive⟩, walk⟩
  | next walk => exact ⟨inr rfl, walk⟩

/-- The sender that has begun `e` frames (`Sending e`) writes nothing, the current frame
again, or the next one. -/
def WritesFrame {σ α : Type} (frame : Nat → List α) (Sending : Nat → σ → Prop) (e : Nat)
    (next : σ × List α) : Prop :=
  Sending e next.1 ∧ next.2 = [] ∨ 1 ≤ e ∧ Sending e next.1 ∧ next.2 = frame e ∨
    Sending (e + 1) next.1 ∧ next.2 = frame (e + 1)

structure Stuttering {σ α β : Type} (send : Transducer σ (Arrival β) α) (frame : Nat → List α)
    (started : σ → Prop) (request : β → Prop) (Sending : Nat → σ → Prop) : Prop where
  step : ∀ {e s arrival}, Sending e s → (¬started s → ∀ b, arrival = .symbol b → request b) →
    WritesFrame frame Sending e (send.step s arrival)
  stays : ∀ {e s arrival}, Sending e s → started s → started (send.step s arrival).1
  idle : ∀ {e s}, Sending e s → ¬started s → e = 0

/-- The receiver that took `d` frames and `part` of the `i`-th (`Reading d part`) stops,
has the frame, or has more of it. -/
def TakesSymbol {ρ α : Type} (Reading : Nat → List α → ρ → Prop) (Stopped : ρ → Prop)
    (d i : Nat) (part rest : List α) (r : ρ) : Prop :=
  Stopped r ∨ rest = [] ∧ Reading i [] r ∨ rest ≠ [] ∧ Reading d part r

structure Assembling {ρ α β : Type} (receive : Transducer ρ (Arrival α) β)
    (frame : Nat → List α) (request : β → Prop) (Reading : Nat → List α → ρ → Prop)
    (Stopped : ρ → Prop) : Prop where
  symbol : ∀ {d i part a rest r}, Reading d part r → (i = d ∧ 1 ≤ d ∨ i = d + 1) →
    frame i = part ++ a :: rest →
    TakesSymbol Reading Stopped d i (part ++ [a]) rest (receive.step r (.symbol a)).1
  alone : ∀ {d part arrival r}, Reading d part r → arrival.Alone →
    Stopped (receive.step r arrival).1 ∨ Reading d part (receive.step r arrival).1
  asks : ∀ {arrival r}, Reading 0 [] r → arrival.Alone →
    ∀ b ∈ (receive.step r arrival).2, request b
  stopped : ∀ {arrival r}, Stopped r →
    Stopped (receive.step r arrival).1 ∧ (receive.step r arrival).2 = []

section Safety

variable {σ ρ α β : Type} {send : Transducer σ (Arrival β) α} {receive : Transducer ρ (Arrival α) β}
  {frame : Nat → List α} {started : σ → Prop} {request stray : β → Prop} {Sending : Nat → σ → Prop}
  {Reading : Nat → List α → ρ → Prop} {Stopped : ρ → Prop}

/-- The receiver sits in the middle of the frames that the sender wrote. -/
def InStep (frame : Nat → List α) (Reading : Nat → List α → ρ → Prop) (e : Nat) (r : ρ)
    (forward : List α) : Prop :=
  ∃ d part queue, Reading d part r ∧ Walk d queue e ∧
    part ++ forward = (queue.map frame).flatten ∧
    (part = [] ∨ ∃ i rest, queue.head? = some i ∧ rest ≠ [] ∧ frame i = part ++ rest)

structure Coherent (frame : Nat → List α) (started : σ → Prop) (request : β → Prop)
    (Sending : Nat → σ → Prop) (Reading : Nat → List α → ρ → Prop) (Stopped : ρ → Prop)
    (link : Link σ ρ α β) : Prop where
  asked : ¬started link.sender → ∀ b ∈ link.backward, request b
  inStep : ∃ e, Sending e link.sender ∧
    (Stopped link.receiver ∨ InStep frame Reading e link.receiver link.forward)

theorem InStep.written {e : Nat} {r : ρ} {forward written : List α} {e' : Nat}
    (inStep : InStep frame Reading e r forward)
    (frames : e' = e ∧ 1 ≤ e ∨ e' = e + 1) (whole : written = frame e') :
    InStep frame Reading e' r (forward ++ written) := by
  obtain ⟨d, part, queue, reading, walk, contents, inside⟩ := inStep
  refine ⟨d, part, queue ++ [e'], reading, ?_, by simp [← append_assoc, contents, whole],
    inside.imp_right ?_⟩
  · rcases frames with ⟨rfl, positive⟩ | rfl
    · exact walk.append_again positive
    · exact walk.append_next
  · rintro ⟨i, rest, head, remains, split⟩
    exact ⟨i, rest, by simp [head], remains, split⟩

theorem Coherent.sends {link : Link σ ρ α β}
    (stuttering : Stuttering send frame started request Sending)
    (coherent : Coherent frame started request Sending Reading Stopped link) {arrival : Arrival β}
    (asked : ¬started link.sender → ∀ b, arrival = .symbol b → request b) {backward : List β}
    (kept : ∀ b ∈ backward, b ∈ link.backward) :
    Coherent frame started request Sending Reading Stopped (link.sends send arrival backward) := by
  obtain ⟨e, sending, inStep⟩ := coherent.inStep
  refine ⟨fun idle b mem => ?_, ?_⟩
  · refine coherent.asked (fun before => idle ?_) b (kept b mem)
    exact stuttering.stays sending before
  · rcases stuttering.step sending asked with ⟨same, out⟩ | ⟨positive, same, out⟩ | ⟨more, out⟩
    · exact ⟨e, same, by simpa [Link.sends, out] using inStep⟩
    · exact ⟨e, same, inStep.imp_right fun inStep => inStep.written (.inl ⟨rfl, positive⟩) out⟩
    · exact ⟨e + 1, more, inStep.imp_right fun inStep => inStep.written (.inr rfl) out⟩

theorem InStep.symbol (assembling : Assembling receive frame request Reading Stopped)
    (nonempty : ∀ i, 1 ≤ i → frame i ≠ []) {e : Nat} {r : ρ} {a : α} {forward : List α}
    (inStep : InStep frame Reading e r (a :: forward)) :
    Stopped (receive.step r (.symbol a)).1 ∨
      InStep frame Reading e (receive.step r (.symbol a)).1 forward := by
  obtain ⟨d, part, queue, reading, walk, contents, inside⟩ := inStep
  cases queue with
  | nil => simp at contents
  | cons i queue =>
    obtain ⟨position, walk'⟩ := walk.of_cons
    have split : ∃ rest, frame i = part ++ a :: rest ∧ forward = rest ++ (queue.map frame).flatten := by
      rw [map_cons, flatten_cons] at contents
      obtain ⟨rest, remains, whole⟩ : ∃ rest, rest ≠ [] ∧ frame i = part ++ rest := by
        rcases inside with rfl | ⟨j, rest, head, remains, whole⟩
        · exact ⟨frame i, nonempty i (by omega), rfl⟩
        · obtain rfl : i = j := by simpa using head
          exact ⟨rest, remains, whole⟩
      rw [whole, append_assoc, append_cancel_left_eq] at contents
      cases rest with
      | nil => exact absurd rfl remains
      | cons a' rest =>
        obtain ⟨rfl, same⟩ := List.cons.inj contents
        exact ⟨rest, whole, same⟩
    obtain ⟨rest, whole, rfl⟩ := split
    rcases assembling.symbol reading position whole with stopped | ⟨rfl, taken⟩ | ⟨more, partly⟩
    · exact inl stopped
    · exact inr ⟨i, [], queue, taken, walk', by simp, inl rfl⟩
    · exact inr ⟨d, part ++ [a], i :: queue, partly, walk, by simp [whole],
        inr ⟨i, rest, rfl, more, by simp [whole]⟩⟩

theorem InStep.idle {r : ρ} {forward : List α} (inStep : InStep frame Reading 0 r forward) :
    forward = [] ∧ Reading 0 [] r := by
  obtain ⟨d, part, queue, reading, walk, contents, -⟩ := inStep
  obtain ⟨rfl, rfl⟩ := walk.of_zero
  obtain ⟨rfl, rfl⟩ := append_eq_nil_iff.mp contents
  exact ⟨rfl, reading⟩

theorem Coherent.delivers {link : Link σ ρ α β}
    (stuttering : Stuttering send frame started request Sending)
    (assembling : Assembling receive frame request Reading Stopped)
    (nonempty : ∀ i, 1 ≤ i → frame i ≠ [])
    (coherent : Coherent frame started request Sending Reading Stopped link) {a : α}
    {forward : List α} (next : link.forward = a :: forward) :
    Coherent frame started request Sending Reading Stopped
      (link.receives receive (.symbol a) forward) := by
  obtain ⟨e, sending, inStep⟩ := coherent.inStep
  refine ⟨fun idle b mem => ?_, e, sending, ?_⟩
  · rcases mem_append.mp mem with old | new
    · exact coherent.asked idle b old
    · rcases inStep with stopped | inStep
      · simp [(assembling.stopped stopped).2] at new
      · obtain rfl := stuttering.idle sending idle
        have nothing := inStep.idle.1
        simp [next] at nothing
  · rcases inStep with stopped | inStep
    · exact inl (assembling.stopped stopped).1
    · rw [next] at inStep
      exact inStep.symbol assembling nonempty

theorem Coherent.waits {link : Link σ ρ α β}
    (stuttering : Stuttering send frame started request Sending)
    (assembling : Assembling receive frame request Reading Stopped)
    (coherent : Coherent frame started request Sending Reading Stopped link) {arrival : Arrival α}
    (alone : arrival.Alone) :
    Coherent frame started request Sending Reading Stopped
      (link.receives receive arrival link.forward) := by
  obtain ⟨e, sending, inStep⟩ := coherent.inStep
  refine ⟨fun idle b mem => ?_, e, sending, ?_⟩
  · rcases mem_append.mp mem with old | new
    · exact coherent.asked idle b old
    · rcases inStep with stopped | inStep
      · simp [(assembling.stopped stopped).2] at new
      · obtain rfl := stuttering.idle sending idle
        exact assembling.asks inStep.idle.2 alone b new
  · rcases inStep with stopped | ⟨d, part, queue, reading, place⟩
    · exact inl (assembling.stopped stopped).1
    · exact (assembling.alone reading alone).imp_right
        fun still => ⟨d, part, queue, still, place⟩

theorem Coherent.run {start link : Link σ ρ α β}
    (stuttering : Stuttering send frame started request Sending)
    (assembling : Assembling receive frame request Reading Stopped)
    (nonempty : ∀ i, 1 ≤ i → frame i ≠ [])
    (initial : Coherent frame started request Sending Reading Stopped start)
    (run : Link.Run send receive started stray start link) :
    Coherent frame started request Sending Reading Stopped link := by
  induction run with
  | start => exact initial
  | @respond link b backward run next ih =>
    refine ih.sends stuttering (fun idle b' same => ?_) (fun b' mem => ?_)
    · cases same
      exact ih.asked idle _ (by rw [next]; exact mem_cons_self)
    · rw [next]
      exact mem_cons_of_mem _ mem
  | @sender link arrival run alone ih =>
    refine ih.sends stuttering (fun _ b same => ?_) (fun _ mem => mem)
    subst same
    exact alone.elim
  | @deliver link a forward run next ih => exact ih.delivers stuttering assembling nonempty next
  | @receiver link arrival run alone ih => exact ih.waits stuttering assembling alone
  | stray run underWay isStray backward ih =>
    exact ⟨fun idle => absurd underWay idle, ih.inStep⟩

theorem Link.Run.stopped_or_reading {start link : Link σ ρ α β}
    (stuttering : Stuttering send frame started request Sending)
    (assembling : Assembling receive frame request Reading Stopped)
    (nonempty : ∀ i, 1 ≤ i → frame i ≠ [])
    (sending : Sending 0 start.sender) (reading : Reading 0 [] start.receiver)
    (asked : ∀ b ∈ start.backward, request b) (empty : start.forward = [])
    (run : Link.Run send receive started stray start link) :
    Stopped link.receiver ∨ ∃ d part, Reading d part link.receiver := by
  have initial : Coherent frame started request Sending Reading Stopped start :=
    ⟨fun _ => asked, 0, sending,
      inr ⟨0, [], [], reading, .nil 0, by simp [empty], inl rfl⟩⟩
  obtain ⟨e, -, inStep⟩ := (initial.run stuttering assembling nonempty run).inStep
  exact inStep.imp_right fun ⟨d, part, _, still, _⟩ => ⟨d, part, still⟩

end Safety

end PortMate
