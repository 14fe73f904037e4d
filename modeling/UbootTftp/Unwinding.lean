import Mathlib.Data.List.Forall2
import UbootTftp.Runs

/-!
# Unwinding of a run into one part of it

A part of a system takes part in some events of a run, and which ones it takes part in
can depend on the state. In a second run that holds only these events, each as the part
knows it, the part should notice no difference. Two local conditions on a relation
between the states of the two runs are enough: an event of the others keeps the states
related, and an event of the part shows the same in related states and keeps them
related.
-/

namespace Runs

universe u v w
variable {σ : Type u} {ε : Type v} {ω : Type w}

/-- The local conditions: `own` is an event as the part knows it, or nothing for an event of the
others, and `same` relates events that the part does not tell apart. Both conditions are about one
step from related states. -/
structure Unwinds (step : σ → ε → σ) (own : σ → ε → Option ε) (observe : σ → ε → Option ω)
    (same : ε → ε → Prop) (view : σ → σ → Prop) : Prop where
  others : ∀ state alone event, view state alone → own state event = none →
    view (step state event) alone ∧ observe state event = none
  consistent : ∀ state alone event known again, view state alone →
    own state event = some known → same known again →
    view (step state event) (step alone again) ∧ observe state event = observe alone again

/-- Over whole runs the part sees what it sees alone, and the states stay related.

Proof: by induction on the events of the whole run. An event of the others is passed over in the run
of the part, and an event of the part is the next one there. -/
theorem Unwinds.runs {step : σ → ε → σ} {own : σ → ε → Option ε} {observe : σ → ε → Option ω}
    {same : ε → ε → Prop} {view : σ → σ → Prop} (unwinds : Unwinds step own observe same view)
    (events : List ε) (state alone : σ) (related : view state alone) (again : List ε)
    (known : List.Forall₂ same (observed step own state events) again) :
    observed step observe state events = observed step observe alone again ∧
      view (run step state events) (run step alone again) := by
  induction events generalizing state alone again with
  | nil =>
    cases known
    exact ⟨rfl, related⟩
  | cons event events inductionHypothesis =>
    simp only [observed] at known ⊢
    cases owned : own state event with
    | none =>
      obtain ⟨kept, silent⟩ := unwinds.others state alone event related owned
      rw [owned] at known
      rw [silent]
      exact inductionHypothesis (step state event) alone kept again known
    | some first =>
      rw [owned] at known
      obtain ⟨head, rest, alike, later, rfl⟩ := List.forall₂_cons_left_iff.mp known
      obtain ⟨kept, shown⟩ := unwinds.consistent state alone event first head related owned alike
      obtain ⟨sees, ends⟩ := inductionHypothesis _ _ kept rest later
      refine ⟨?_, ends⟩
      rw [observed, shown, sees]

end Runs
