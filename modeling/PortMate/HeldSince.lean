import Mathlib.Data.List.Infix

namespace PortMate

section HeldSince

variable {σ ι τ : Type} (step : σ → ι → σ) (time : ι → τ)

/-- A condition began to hold with an input at `since`, and has held after every input from then
on. -/
def HeldSince (holds : σ → Prop) (start : σ) (inputs : List ι) (since : τ) : Prop :=
  ∃ earlier input later, inputs = earlier ++ input :: later ∧ time input = since ∧
    ¬ holds (earlier.foldl step start) ∧
    ∀ part, part <+: later → holds ((earlier ++ input :: part).foldl step start)

variable {step time} {holds : σ → Prop} {start : σ}

theorem HeldSince.concat {inputs : List ι} {last : ι} {since : τ}
    (held : HeldSince step time holds start inputs since)
    (still : holds ((inputs ++ [last]).foldl step start)) :
    HeldSince step time holds start (inputs ++ [last]) since := by
  obtain ⟨earlier, input, later, rfl, at_time, before, after⟩ := held
  refine ⟨earlier, input, later ++ [last], by simp, at_time, before, fun part inside => ?_⟩
  obtain within | rfl := List.prefix_concat_iff.mp inside |>.symm
  · exact after part within
  · simpa using still

theorem HeldSince.from_now {inputs : List ι} {last : ι} (before : ¬ holds (inputs.foldl step start))
    (after : holds ((inputs ++ [last]).foldl step start)) :
    HeldSince step time holds start (inputs ++ [last]) (time last) := by
  refine ⟨inputs, last, [], rfl, rfl, before, fun part inside => ?_⟩
  rwa [List.prefix_nil.mp inside]

variable (step time holds) in
theorem marked_since (invariant : σ → Prop) (mark : σ → Option τ) (initially : ¬ holds start)
    (first : invariant start) (kept : ∀ s input, invariant s → invariant (step s input))
    (marks : ∀ s input, invariant s → holds (step s input) →
      holds s ∧ mark (step s input) = mark s ∨
        ¬ holds s ∧ mark (step s input) = some (time input))
    (inputs : List ι) :
    invariant (inputs.foldl step start) ∧ (holds (inputs.foldl step start) →
      ∃ since, mark (inputs.foldl step start) = some since ∧
        HeldSince step time holds start inputs since) := by
  induction inputs using List.reverseRecOn with
  | nil => exact ⟨first, fun now => absurd now initially⟩
  | append_singleton inputs last ih =>
    obtain ⟨inv, since⟩ := ih
    have next : (inputs ++ [last]).foldl step start = step (inputs.foldl step start) last := by
      rw [List.foldl_append]
      rfl
    refine ⟨next ▸ kept _ last inv, fun now => ?_⟩
    have after := now
    rw [next] at now ⊢
    obtain ⟨before, same⟩ | ⟨before, begins⟩ := marks _ last inv now
    · obtain ⟨t, marked, held⟩ := since before
      exact ⟨t, same.trans marked, held.concat after⟩
    · exact ⟨time last, begins, HeldSince.from_now before after⟩

end HeldSince

end PortMate
