import Mathlib.Data.List.Induction

/-!
# Runs of a deterministic step function

A run folds a step function over a list of events. An invariant of a run may
mention the events already taken, so that a property of the past, such as which
event came last, is carried by the same induction as a property of the state.

A guard restricts single steps. A guarded run is one whose every step meets the
guard in the state where the step is taken. What single steps show can be collected
over a run in the order of the steps.
-/

namespace Runs

universe u v w
variable {σ : Type u} {ε : Type v} {ω : Type w}

/-- The state after taking the listed events in order. -/
def run (step : σ → ε → σ) : σ → List ε → σ
  | state, [] => state
  | state, event :: events => run step (step state event) events

/-- Without events nothing changes. -/
@[simp] theorem run_nil (step : σ → ε → σ) (state : σ) : run step state [] = state := rfl

/-- The first event is taken before the others. -/
@[simp] theorem run_cons (step : σ → ε → σ) (state : σ) (event : ε) (events : List ε) :
    run step state (event :: events) = run step (step state event) events := rfl

/-- A run of a concatenation continues the run of its first part. -/
theorem run_append (step : σ → ε → σ) (state : σ) (first second : List ε) :
    run step state (first ++ second) = run step (run step state first) second := by
  induction first generalizing state with
  | nil => rfl
  | cons event events inductionHypothesis => exact inductionHypothesis (step state event)

/-- The last event of a run is one step from the run of the others. -/
theorem run_snoc (step : σ → ε → σ) (state : σ) (events : List ε) (event : ε) :
    run step state (events ++ [event]) = step (run step state events) event := by
  rw [run_append]
  rfl

/-- A property of the past and the present that the empty past satisfies and
every step extends holds of every run. The induction is on the events from the
last one back, so a step sees the whole past that precedes it. -/
theorem run_history (step : σ → ε → σ) (initial : σ) (holds : List ε → σ → Prop)
    (base : holds [] initial)
    (extended : ∀ past event, holds past (run step initial past) →
      holds (past ++ [event]) (step (run step initial past) event))
    (events : List ε) : holds events (run step initial events) := by
  induction events using List.reverseRecOn with
  | nil => exact base
  | append_singleton past event inductionHypothesis =>
    rw [run_snoc]
    exact extended past event inductionHypothesis

/-- A property of states that every step preserves holds after every run. The step lemma is the
hypothesis, so the induction is made once here and nowhere else. -/
theorem run_invariant (step : σ → ε → σ) (holds : σ → Prop)
    (preserved : ∀ state event, holds state → holds (step state event))
    (initial : σ) (base : holds initial) (events : List ε) :
    holds (run step initial events) := by
  induction events generalizing initial with
  | nil => exact base
  | cons event events inductionHypothesis =>
    exact inductionHypothesis (step initial event) (preserved initial event base)

/-- A property of states holds after a run unless some step of the run broke it. The first step that
breaks it can be named, with the events before and behind it. -/
theorem run_unless (step : σ → ε → σ) (holds : σ → Prop) (breaks : σ → ε → Prop)
    (kept : ∀ state event, holds state → holds (step state event) ∨ breaks state event)
    (initial : σ) (base : holds initial) (events : List ε) :
    holds (run step initial events) ∨ ∃ past event future,
      events = past ++ event :: future ∧ breaks (run step initial past) event := by
  induction events generalizing initial with
  | nil => exact .inl base
  | cons first rest inductionHypothesis =>
    rcases kept initial first base with held | broken
    · rcases inductionHypothesis (step initial first) held with
        after | ⟨past, event, future, split, breaks⟩
      · exact .inl after
      · exact .inr ⟨first :: past, event, future, by rw [split, List.cons_append], breaks⟩
    · exact .inr ⟨[], first, rest, rfl, broken⟩

/-- Every step of the run meets the guard where it is taken. -/
def Guarded (step : σ → ε → σ) (guard : σ → ε → Prop) : σ → List ε → Prop
  | _, [] => True
  | state, event :: events => guard state event ∧ Guarded step guard (step state event) events

/-- A run is guarded exactly when each of its steps is.

Proof: by induction on the events, from any state; the states of the later steps are those behind
the first one. -/
theorem guarded_iff (step : σ → ε → σ) (guard : σ → ε → Prop) (state : σ) (events : List ε) :
    Guarded step guard state events ↔
      ∀ past event future, events = past ++ event :: future →
        guard (run step state past) event := by
  induction events generalizing state with
  | nil => simp [Guarded]
  | cons first rest inductionHypothesis =>
    simp only [Guarded, inductionHypothesis]
    constructor
    · rintro ⟨here, later⟩ past event future split
      cases past with
      | nil =>
        obtain ⟨rfl, rfl⟩ := List.cons.inj split
        exact here
      | cons head past =>
        obtain ⟨rfl, rest⟩ := List.cons.inj split
        exact later past event future rest
    · intro every
      refine ⟨every [] first rest rfl, ?_⟩
      intro past event future split
      exact every (first :: past) event future (by rw [split, List.cons_append])

/-- A run is guarded up to its last event and there. -/
theorem guarded_snoc (step : σ → ε → σ) (guard : σ → ε → Prop) (state : σ) (events : List ε)
    (event : ε) : Guarded step guard state (events ++ [event]) ↔
      Guarded step guard state events ∧ guard (run step state events) event := by
  induction events generalizing state with
  | nil => simp [Guarded]
  | cons first rest inductionHypothesis =>
    simp only [List.cons_append, Guarded, inductionHypothesis, run_cons, and_assoc]

/-- A property of the past and the present that every guarded step extends holds of
every guarded run. -/
theorem guarded_history (step : σ → ε → σ) (guard : σ → ε → Prop) (initial : σ)
    (holds : List ε → σ → Prop) (base : holds [] initial)
    (extended : ∀ past event, guard (run step initial past) event →
      holds past (run step initial past) →
      holds (past ++ [event]) (step (run step initial past) event))
    (events : List ε) (guarded : Guarded step guard initial events) :
    holds events (run step initial events) := by
  have history := run_history step initial
    (fun past present => Guarded step guard initial past → holds past present) (fun _ => base)
  refine history ?_ events guarded
  intro past event held guarded
  obtain ⟨before, here⟩ := (guarded_snoc step guard initial past event).mp guarded
  exact extended past event here (held before)

/-- A property that every guarded step preserves holds after every guarded run. The guard is met in
the state where the step is taken, so it may speak of that state. -/
theorem guarded_invariant (step : σ → ε → σ) (guard : σ → ε → Prop) (holds : σ → Prop)
    (preserved : ∀ state event, guard state event → holds state → holds (step state event))
    (initial : σ) (base : holds initial) (events : List ε)
    (guarded : Guarded step guard initial events) : holds (run step initial events) := by
  induction events generalizing initial with
  | nil => exact base
  | cons event events inductionHypothesis =>
    exact inductionHypothesis (step initial event) (preserved initial event guarded.1 base)
      guarded.2

/-- What the steps of a run show, in order; a step may show nothing. Each is observed in the state
before it. -/
def observed (step : σ → ε → σ) (observe : σ → ε → Option ω) : σ → List ε → List ω
  | _, [] => []
  | state, event :: events =>
    (observe state event).toList ++ observed step observe (step state event) events

/-- The last event of a run shows what it shows in the state before it. -/
theorem observed_snoc (step : σ → ε → σ) (observe : σ → ε → Option ω) (state : σ)
    (events : List ε) (event : ε) :
    observed step observe state (events ++ [event]) =
      observed step observe state events ++ (observe (run step state events) event).toList := by
  induction events generalizing state with
  | nil => simp [observed]
  | cons first rest inductionHypothesis =>
    simp only [List.cons_append, observed, inductionHypothesis, run_cons, List.append_assoc]

/-- What is collected was shown by some step of the run.

Proof: by induction on the events, from any state. -/
theorem mem_observed (step : σ → ε → σ) (observe : σ → ε → Option ω) (state : σ)
    (events : List ε) (item : ω) :
    item ∈ observed step observe state events ↔ ∃ past event future,
      events = past ++ event :: future ∧ observe (run step state past) event = some item := by
  induction events generalizing state with
  | nil => simp [observed]
  | cons first rest inductionHypothesis =>
    simp only [observed, List.mem_append, Option.mem_toList, inductionHypothesis]
    constructor
    · rintro (here | ⟨past, event, future, split, shown⟩)
      · exact ⟨[], first, rest, rfl, here⟩
      · exact ⟨first :: past, event, future, by rw [split, List.cons_append], shown⟩
    · rintro ⟨past, event, future, split, shown⟩
      cases past with
      | nil =>
        obtain ⟨rfl, rfl⟩ := List.cons.inj split
        exact .inl shown
      | cons head past =>
        obtain ⟨rfl, rest⟩ := List.cons.inj split
        exact .inr ⟨past, event, future, rest, shown⟩

end Runs
