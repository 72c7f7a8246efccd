import Mathlib.Data.List.Basic

namespace PortMate

open List

/-- Every element is right after those before it. -/
def EachAfter {α : Type} (right : List α → α → Prop) (trace : List α) : Prop :=
  ∀ before item after, trace = before ++ item :: after → right before item

theorem eachAfter_nil {α : Type} (right : List α → α → Prop) : EachAfter right [] := by
  intro before item after split
  exact absurd split (by simp)

theorem EachAfter.concat {α : Type} {right : List α → α → Prop} {trace : List α} {last : α}
    (old : EachAfter right trace) (new : right trace last) : EachAfter right (trace ++ [last]) := by
  intro before item after split
  rcases eq_nil_or_concat' after with rfl | ⟨rest, final, rfl⟩
  · obtain ⟨rfl, rfl⟩ : trace = before ∧ last = item := by simpa using split
    exact new
  · rw [← cons_append, ← append_assoc] at split
    obtain ⟨same, -⟩ := append_inj' split rfl
    exact old before item rest same

/-- A machine that reads one symbol at a time and emits a list of signals. -/
structure Transducer (σ α β : Type) where
  step : σ → α → σ × List β

namespace Transducer

variable {σ α β : Type} (t : Transducer σ α β)

def run : σ → List α → σ × List β
  | s, [] => (s, [])
  | s, a :: as =>
    let (s', emitted) := t.step s a
    let (final, rest) := run s' as
    (final, emitted ++ rest)

/-- The input arrives in pieces; each piece is run to its end before the next. -/
def runChunks : σ → List (List α) → σ × List β
  | s, [] => (s, [])
  | s, chunk :: chunks =>
    let (s', emitted) := t.run s chunk
    let (final, rest) := runChunks s' chunks
    (final, emitted ++ rest)

variable (s : σ)

@[simp] theorem run_nil : t.run s [] = (s, []) := rfl

@[simp] theorem run_cons (a : α) (as : List α) :
    t.run s (a :: as) =
      ((t.run (t.step s a).1 as).1, (t.step s a).2 ++ (t.run (t.step s a).1 as).2) := rfl

theorem run_append (as bs : List α) :
    t.run s (as ++ bs) =
      ((t.run (t.run s as).1 bs).1, (t.run s as).2 ++ (t.run (t.run s as).1 bs).2) := by
  induction as generalizing s with
  | nil => rfl
  | cons a as ih => simp [ih, append_assoc]

theorem runChunks_eq_run_flatten (chunks : List (List α)) :
    t.runChunks s chunks = t.run s chunks.flatten := by
  induction chunks generalizing s with
  | nil => rfl
  | cons chunk chunks ih =>
    rw [flatten_cons, run_append, ← ih]
    rfl

/-- The machine seen through a translation of what it emits. -/
def emitting {γ : Type} (f : β → List γ) : Transducer σ α γ where
  step s a := ((t.step s a).1, (t.step s a).2.flatMap f)

@[simp] theorem emitting_step {γ : Type} (f : β → List γ) (s : σ) (a : α) :
    (t.emitting f).step s a = ((t.step s a).1, (t.step s a).2.flatMap f) := rfl

theorem emitting_run {γ : Type} (f : β → List γ) (s : σ) (as : List α) :
    (t.emitting f).run s as = ((t.run s as).1, (t.run s as).2.flatMap f) := by
  induction as generalizing s with
  | nil => rfl
  | cons a as ih => simp [ih]

theorem run_preserves {Inv : σ → Prop} (step : ∀ s a, Inv s → Inv (t.step s a).1)
    {s : σ} (initial : Inv s) (as : List α) : Inv (t.run s as).1 := by
  induction as generalizing s with
  | nil => exact initial
  | cons a as ih => exact ih (step s a initial)

/-- Every step of the run meets `P` in the state in which it is taken. -/
def StepsMeet (P : σ → α → Prop) : σ → List α → Prop
  | _, [] => True
  | s, a :: as => P s a ∧ StepsMeet P (t.step s a).1 as

instance decidableStepsMeet {P : σ → α → Prop} [meets : ∀ s a, Decidable (P s a)] :
    ∀ s as, Decidable (t.StepsMeet P s as)
  | _, [] => .isTrue trivial
  | s, a :: as => @instDecidableAnd _ _ (meets s a) (decidableStepsMeet (t.step s a).1 as)

theorem stepsMeet_append {P : σ → α → Prop} {s : σ} {as bs : List α} :
    t.StepsMeet P s (as ++ bs) ↔ t.StepsMeet P s as ∧ t.StepsMeet P (t.run s as).1 bs := by
  induction as generalizing s with
  | nil => simp [StepsMeet]
  | cons a as ih => simp [StepsMeet, ih, and_assoc]

theorem run_preserves_trace_of {P : σ → α → Prop} {Inv : σ → List β → Prop}
    (step : ∀ s trace a, P s a → Inv s trace → Inv (t.step s a).1 (trace ++ (t.step s a).2))
    {s : σ} {trace : List β} {as : List α} (meets : t.StepsMeet P s as) (initial : Inv s trace) :
    Inv (t.run s as).1 (trace ++ (t.run s as).2) := by
  induction as generalizing s trace with
  | nil => simpa using initial
  | cons a as ih =>
    have next := ih meets.2 (step s trace a meets.1 initial)
    simpa [append_assoc] using next

theorem stepsMeet_true (as : List α) : t.StepsMeet (fun _ _ => True) s as := by
  induction as generalizing s with
  | nil => trivial
  | cons a as ih => exact ⟨trivial, ih _⟩

theorem run_preserves_trace {Inv : σ → List β → Prop}
    (step : ∀ s trace a, Inv s trace → Inv (t.step s a).1 (trace ++ (t.step s a).2))
    {s : σ} {trace : List β} (initial : Inv s trace) (as : List α) :
    Inv (t.run s as).1 (trace ++ (t.run s as).2) :=
  t.run_preserves_trace_of (fun s trace a _ => step s trace a) (t.stepsMeet_true s as) initial

theorem run_simulates {τ : Type} (u : Transducer τ α β) {R : σ → τ → Prop} {P : σ → α → Prop}
    (step : ∀ s s' a, P s a → R s s' →
      (t.step s a).2 = (u.step s' a).2 ∧ R (t.step s a).1 (u.step s' a).1)
    {s : σ} {s' : τ} {as : List α} (meets : t.StepsMeet P s as) (related : R s s') :
    (t.run s as).2 = (u.run s' as).2 ∧ R (t.run s as).1 (u.run s' as).1 := by
  induction as generalizing s s' with
  | nil => exact ⟨rfl, related⟩
  | cons a as ih =>
    obtain ⟨answers, related⟩ := step s s' a meets.1 related
    obtain ⟨later, ends⟩ := ih meets.2 related
    exact ⟨congr (congrArg _ answers) later, ends⟩

end Transducer

end PortMate
