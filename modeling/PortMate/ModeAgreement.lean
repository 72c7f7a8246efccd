import Mathlib.Data.List.Count

namespace PortMate

open List Function

inductive Party
  | left
  | right
  deriving DecidableEq

def Party.other : Party → Party
  | .left => .right
  | .right => .left

@[simp] theorem Party.other_other (p : Party) : p.other.other = p := by
  cases p <;> rfl

@[simp] theorem Party.other_ne (p : Party) : p.other ≠ p := by
  cases p <;> decide

@[simp] theorem Party.ne_other (p : Party) : p ≠ p.other := by
  cases p <;> decide

theorem Party.eq_or_eq_other (p q : Party) : q = p ∨ q = p.other := by
  cases p <;> cases q <;> decide

/-- Two parties keep a common switch. A party told the value it has stays silent;
otherwise it takes the value as far as it grants it and tells the other party. -/
structure ModeAgreement where
  mode : Party → Bool
  requests : Party → List Bool

namespace ModeAgreement

theorem ext_at {a b : ModeAgreement} (p : Party) (mode : a.mode p = b.mode p)
    (mode_other : a.mode p.other = b.mode p.other) (requests : a.requests p = b.requests p)
    (requests_other : a.requests p.other = b.requests p.other) : a = b := by
  refine ModeAgreement.mk.injEq .. |>.mpr ⟨funext fun q => ?_, funext fun q => ?_⟩
  · rcases p.eq_or_eq_other q with rfl | rfl <;> assumption
  · rcases p.eq_or_eq_other q with rfl | rfl <;> assumption

def start : ModeAgreement := ⟨fun _ => false, fun _ => []⟩

def ignore (a : ModeAgreement) (p : Party) (rest : List Bool) : ModeAgreement :=
  { a with requests := update a.requests p rest }

def answer (a : ModeAgreement) (p : Party) (granted : Bool) (rest : List Bool) : ModeAgreement :=
  ⟨update a.mode p granted,
    update (update a.requests p rest) p.other
      (a.requests p.other ++ [granted])⟩

def ask (a : ModeAgreement) (p : Party) (request : Bool) : ModeAgreement :=
  { a with requests := update a.requests p (a.requests p ++ [request]) }

@[simp] theorem ignore_mode (a : ModeAgreement) (p : Party) (rest : List Bool) :
    (a.ignore p rest).mode = a.mode := rfl

@[simp] theorem ignore_requests (a : ModeAgreement) (p : Party) (rest : List Bool) :
    (a.ignore p rest).requests p = rest := by
  simp [ignore]

@[simp] theorem ignore_requests_other (a : ModeAgreement) (p : Party) (rest : List Bool) :
    (a.ignore p rest).requests p.other = a.requests p.other := by
  simp [ignore]

theorem ignore_self (a : ModeAgreement) (p : Party) : a.ignore p (a.requests p) = a := by
  simp [ignore]

@[simp] theorem answer_mode (a : ModeAgreement) (p : Party) (granted : Bool) (rest : List Bool) :
    (a.answer p granted rest).mode p = granted := by
  simp [answer]

@[simp] theorem answer_mode_other (a : ModeAgreement) (p : Party) (granted : Bool)
    (rest : List Bool) : (a.answer p granted rest).mode p.other = a.mode p.other := by
  simp [answer]

@[simp] theorem answer_requests (a : ModeAgreement) (p : Party) (granted : Bool)
    (rest : List Bool) : (a.answer p granted rest).requests p = rest := by
  simp [answer]

@[simp] theorem answer_requests_other (a : ModeAgreement) (p : Party) (granted : Bool)
    (rest : List Bool) :
    (a.answer p granted rest).requests p.other = a.requests p.other ++ [granted] := by
  simp [answer]

@[simp] theorem ask_mode (a : ModeAgreement) (p : Party) (request : Bool) :
    (a.ask p request).mode = a.mode := rfl

@[simp] theorem ask_requests (a : ModeAgreement) (p : Party) (request : Bool) :
    (a.ask p request).requests p = a.requests p ++ [request] := by
  simp [ask]

@[simp] theorem ask_requests_other (a : ModeAgreement) (p : Party) (request : Bool) :
    (a.ask p request).requests p.other = a.requests p.other := by
  simp [ask]

/-- Where both parties grant the mode, only one kind of request is under way. -/
def Unopposed (grants : Party → Bool) (a : ModeAgreement) (request : Bool) : Prop :=
  (∀ p, grants p = true) → ∀ p, ∀ pending ∈ a.requests p, pending = request

/-- The runs, with the answers given and the requests made from outside so far. -/
inductive Run (grants : Party → Bool) : ModeAgreement → Nat → Nat → Prop
  | start : Run grants start 0 0
  | ignore {a : ModeAgreement} {answers asked : Nat} {p : Party} {request : Bool}
      {rest : List Bool} (run : Run grants a answers asked)
      (next : a.requests p = request :: rest) (inForce : a.mode p = request) :
      Run grants (a.ignore p rest) answers asked
  | answer {a : ModeAgreement} {answers asked : Nat} {p : Party} {request : Bool}
      {rest : List Bool} (run : Run grants a answers asked)
      (next : a.requests p = request :: rest) (changes : a.mode p ≠ request) :
      Run grants (a.answer p (request && grants p) rest) (answers + 1) asked
  | ask {a : ModeAgreement} {answers asked : Nat} (run : Run grants a answers asked) (p : Party)
      (request : Bool) (unopposed : a.Unopposed grants request) :
      Run grants (a.ask p request) answers (asked + 1)

variable {grants : Party → Bool} {a : ModeAgreement} {answers asked : Nat}

/-- The parties that a request of this kind would still change. -/
def disagreeing (a : ModeAgreement) (request : Bool) : Nat :=
  (if a.mode .left = request then 0 else 1) + (if a.mode .right = request then 0 else 1)

theorem disagreeing_eq (a : ModeAgreement) (request : Bool) (p : Party) :
    a.disagreeing request =
      (if a.mode p = request then 0 else 1) + (if a.mode p.other = request then 0 else 1) := by
  cases p
  · rfl
  · exact Nat.add_comm _ _

theorem disagreeing_le (a : ModeAgreement) (request : Bool) : a.disagreeing request ≤ 2 := by
  unfold disagreeing
  split_ifs <;> omega

theorem Run.settling (run : Run grants a answers asked) (willing : ∀ p, grants p = true) :
    (∀ p, a.requests p = []) ∧ answers ≤ 3 * asked ∨
      ∃ request, (∀ p, ∀ pending ∈ a.requests p, pending = request) ∧
        answers + a.disagreeing request ≤ 3 * asked := by
  induction run with
  | start => exact Or.inl ⟨fun _ => rfl, Nat.zero_le _⟩
  | @ignore a answers asked p request rest run next inForce ih =>
    refine Or.inr ?_
    rcases ih with ⟨empty, -⟩ | ⟨kind, alike, bound⟩
    · simp [empty] at next
    refine ⟨kind, fun q pending mem => ?_, bound⟩
    rcases p.eq_or_eq_other q with rfl | rfl
    · exact alike q pending (by rw [next]; exact mem_cons_of_mem _ (by simpa using mem))
    · exact alike _ pending (by simpa using mem)
  | @answer a answers asked p request rest run next changes ih =>
    refine Or.inr ?_
    rcases ih with ⟨empty, -⟩ | ⟨kind, alike, bound⟩
    · simp [empty] at next
    obtain rfl : request = kind := alike p request (by rw [next]; exact mem_cons_self)
    have granted : (request && grants p) = request := by simp [willing p]
    rw [granted]
    refine ⟨request, fun q pending mem => ?_, ?_⟩
    · rcases p.eq_or_eq_other q with rfl | rfl
      · exact alike q pending (by rw [next]; exact mem_cons_of_mem _ (by simpa using mem))
      · have queued : pending ∈ a.requests p.other ∨ pending = request := by simpa using mem
        exact queued.elim (alike _ pending) id
    · rw [disagreeing_eq _ _ p] at bound ⊢
      simp only [answer_mode, answer_mode_other, if_neg changes, ↓reduceIte] at bound ⊢
      omega
  | @ask a answers asked run p request unopposed ih =>
    refine Or.inr ⟨request, fun q pending mem => ?_, ?_⟩
    · rcases p.eq_or_eq_other q with rfl | rfl
      · have queued : pending ∈ a.requests q ∨ pending = request := by simpa using mem
        exact queued.elim (unopposed willing _ pending) id
      · exact unopposed willing _ pending (by simpa using mem)
    · have fresh := disagreeing_le (a.ask p request) request
      have before : answers ≤ 3 * asked := by
        rcases ih with ⟨-, bound⟩ | ⟨kind, -, bound⟩ <;> omega
      omega

/-- What the requests under way can still cause when `p` grants nothing: a request
seen by `p` ends as a refusal, and a refusal dies at `p`. -/
def cost (p : Party) (a : ModeAgreement) : Nat :=
  2 * (a.requests p).count true + (a.requests p.other).length +
    2 * (a.requests p.other).count true

theorem Run.refusing (run : Run grants a answers asked) {p : Party} (refuses : grants p = false) :
    a.mode p = false ∧ answers + cost p a ≤ 3 * asked := by
  induction run with
  | start => exact ⟨rfl, by simp [cost, ModeAgreement.start]⟩
  | @ignore a answers asked q request rest run next inForce ih =>
    refine ⟨ih.1, ?_⟩
    have before := ih.2
    rcases p.eq_or_eq_other q with rfl | rfl
    · simp only [cost, next, ignore_requests, ignore_requests_other, count_cons] at before ⊢
      omega
    · simp only [cost, next, ignore_requests, count_cons, length_cons] at before ⊢
      have untouched := ignore_requests_other a p.other rest
      rw [Party.other_other] at untouched
      rw [untouched]
      omega
  | @answer a answers asked q request rest run next changes ih =>
    have before := ih.2
    rcases p.eq_or_eq_other q with rfl | rfl
    · obtain rfl : request = true := by
        have off := ih.1
        rw [off] at changes
        simpa using Ne.symm changes
      refine ⟨by simp [refuses], ?_⟩
      simp only [cost, next, refuses, Bool.and_false, answer_requests, answer_requests_other,
        count_cons, count_append, length_append, count_nil,
        length_cons, length_nil] at before ⊢
      simp only [beq_self_eq_true, ↓reduceIte, Bool.false_beq, Bool.not_true, Bool.false_eq_true]
        at before ⊢
      omega
    · have untouched := answer_mode_other a p.other (request && grants p.other) rest
      have queued := answer_requests_other a p.other (request && grants p.other) rest
      rw [Party.other_other] at untouched queued
      refine ⟨untouched.trans ih.1, ?_⟩
      simp only [cost, next, queued, answer_requests, count_cons, count_append,
        length_cons, count_nil] at before ⊢
      cases request <;> cases grants p.other <;> simp at before ⊢ <;> omega
  | @ask a answers asked run q request unopposed ih =>
    refine ⟨ih.1, ?_⟩
    have before := ih.2
    rcases p.eq_or_eq_other q with rfl | rfl
    · simp only [cost, ask_requests, ask_requests_other, count_append] at before ⊢
      cases request <;> simp <;> omega
    · have untouched := ask_requests_other a p.other request
      rw [Party.other_other] at untouched
      simp only [cost, ask_requests, untouched, count_append, length_append] at before ⊢
      cases request <;> simp <;> omega

theorem Run.answers_le (run : Run grants a answers asked) : answers ≤ 3 * asked := by
  by_cases willing : ∀ p, grants p = true
  · rcases run.settling willing with ⟨-, bound⟩ | ⟨request, -, bound⟩ <;> omega
  · obtain ⟨p, refuses⟩ : ∃ p, grants p = false := by simpa using willing
    have bound := (run.refusing refuses).2
    omega

end ModeAgreement

end PortMate
