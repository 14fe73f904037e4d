import Mathlib.Logic.Basic

/-!
# Scripts with conditionals

A script is run line by line. A line is a command, the start of a conditional with its test, its
`else` or its end. Lines of a branch that is not taken are read for their structure only, so the
machine keeps a frame for each conditional it is inside.

Balanced lines compute a function of the store, whatever conditionals they stand in. The rules
below build that function from the parts of a script, and a script that computes a function
runs to its end.
-/

namespace ConditionalScripts

universe u v w

/-- A line with a command or a test. A conditional always has both branches; one without an `else`
is written with an empty one. -/
inductive Line (α : Type u) (τ : Type v)
  | command (value : α)
  | begin (test : τ)
  | otherwise
  | close
  deriving DecidableEq

/-- A conditional that is open: whether lines around it are live, and before its `else` whether
those behind it will be. Behind the `else` only the first of the two is still needed. -/
inductive Frame
  | first (enclosing rest : Bool)
  | second (enclosing : Bool)

/-- Whether lines are live, the open conditionals from the inside, and the store. -/
structure State (σ : Type w) where
  live : Bool
  frames : List Frame
  store : σ

variable {α : Type u} {τ : Type v} {σ : Type w} (exec : α → σ → σ) (holds : τ → σ → Bool)

/-- Read a line. An `else` or an end without its conditional has no next state. A command is carried
out if its line is live. A test is evaluated also where it is not, which makes no difference. -/
def step (state : State σ) : Line α τ → Option (State σ)
  | .command value =>
    some { state with store := if state.live then exec value state.store else state.store }
  | .begin test =>
    let taken := holds test state.store
    some { state with
      live := state.live && taken
      frames := .first state.live (state.live && !taken) :: state.frames }
  | .otherwise =>
    match state.frames with
    | .first enclosing rest :: frames =>
      some { state with live := rest, frames := .second enclosing :: frames }
    | _ => none
  | .close =>
    match state.frames with
    | .first enclosing _ :: frames => some { state with live := enclosing, frames := frames }
    | .second enclosing :: frames => some { state with live := enclosing, frames := frames }
    | [] => none

/-- Read lines. -/
def steps : List (Line α τ) → State σ → Option (State σ)
  | [], state => some state
  | line :: lines, state => (step exec holds state line).bind (steps lines)

/-- Run a script. It must not end inside a conditional. -/
def run (lines : List (Line α τ)) (store : σ) : Option σ :=
  (steps exec holds lines ⟨true, [], store⟩).bind fun state =>
    if state.frames.isEmpty then some state.store else none

/-- Lines in which every conditional has its `else` and its end. Conditionals may be nested, in
either branch. -/
inductive Balanced : List (Line α τ) → Prop
  | nil : Balanced []
  | command (value : α) (rest : List (Line α τ)) (balanced : Balanced rest) :
      Balanced (.command value :: rest)
  | conditional (test : τ) (front back rest : List (Line α τ)) (taken : Balanced front)
      (refused : Balanced back) (balanced : Balanced rest) :
      Balanced (.begin test :: front ++ .otherwise :: back ++ .close :: rest)

/-- Lines that change the store by a function where they are live, and not at all elsewhere. The
frames around them are as before, so that such lines can stand anywhere. -/
def Computes (lines : List (Line α τ)) (function : σ → σ) : Prop :=
  ∀ (live : Bool) (frames : List Frame) (store : σ),
    steps exec holds lines ⟨live, frames, store⟩ =
      some ⟨live, frames, if live then function store else store⟩

variable {exec holds}

/-- Lines are read one after the other. -/
theorem steps_append (front back : List (Line α τ)) (state : State σ) :
    steps exec holds (front ++ back) state =
      (steps exec holds front state).bind (steps exec holds back) := by
  induction front generalizing state with
  | nil => rfl
  | cons line front inductionHypothesis =>
    simp only [List.cons_append, steps]
    cases step exec holds state line with
    | none => rfl
    | some next => exact inductionHypothesis next

namespace Computes

/-- No lines. -/
theorem nil : Computes exec holds ([] : List (Line α τ)) id := by
  intro live frames store
  simp [steps]

/-- A command before lines. -/
theorem command (value : α) {lines : List (Line α τ)} {function : σ → σ}
    (computes : Computes exec holds lines function) :
    Computes exec holds (.command value :: lines) (fun store => function (exec value store)) := by
  intro live frames store
  simp only [steps, step, Option.bind_some]
  rw [computes live frames]
  cases live <;> rfl

/-- Lines behind lines. -/
theorem append {front back : List (Line α τ)} {first second : σ → σ}
    (begins : Computes exec holds front first) (ends : Computes exec holds back second) :
    Computes exec holds (front ++ back) (fun store => second (first store)) := by
  intro live frames store
  rw [steps_append, begins, Option.bind_some, ends]
  cases live <;> rfl

/-- A conditional runs the branch that its test selects.

Proof: the frame remembers for the `else` branch that it is live exactly if the conditional is
and the test failed, so of two balanced branches at most one changes the store. -/
theorem conditional (test : τ) {front back : List (Line α τ)} {first second : σ → σ}
    (taken : Computes exec holds front first) (refused : Computes exec holds back second) :
    Computes exec holds (.begin test :: front ++ .otherwise :: back ++ [.close])
      (fun store => if holds test store then first store else second store) := by
  intro live frames store
  simp only [List.cons_append, List.append_assoc, steps, step, Option.bind_some, steps_append]
  rw [taken]
  simp only [Option.bind_some]
  rw [steps_append, refused]
  simp only [Option.bind_some, steps, step, Option.some.injEq, State.mk.injEq, true_and]
  cases live <;> cases holds test store <;> rfl

/-- A conditional with one branch. -/
theorem guarded (test : τ) {front : List (Line α τ)} {first : σ → σ}
    (taken : Computes exec holds front first) :
    Computes exec holds (.begin test :: front ++ [.close])
      (fun store => if holds test store then first store else store) := by
  intro live frames store
  simp only [List.cons_append, steps, step, Option.bind_some, steps_append]
  rw [taken]
  simp only [Option.bind_some, Option.some.injEq, State.mk.injEq, true_and]
  cases live <;> cases holds test store <;> rfl

/-- A script that computes a function runs to its end. -/
theorem run {lines : List (Line α τ)} {function : σ → σ}
    (computes : Computes exec holds lines function) (store : σ) :
    ConditionalScripts.run exec holds lines store = some (function store) := by
  simp [ConditionalScripts.run, computes true [] store]

end Computes

/-- A conditional at the end is balanced. -/
theorem Balanced.closed (test : τ) {front back : List (Line α τ)} (taken : Balanced front)
    (refused : Balanced back) :
    Balanced (.begin test :: front ++ .otherwise :: back ++ [.close]) :=
  .conditional test front back [] taken refused .nil

end ConditionalScripts
