import Mathlib.Logic.Basic

/-!
# Code that carries out effects

Code is a list of commands, each of which changes a state. It carries out an effect on abstract
states if it leads from related states to related ones wherever the effect is admitted. A
program is a list of operations; its code is that of its operations one after the other, and it
is admitted where each of them is admitted behind the ones before it.
-/

namespace CodeRefinement

universe u v w x y
variable {α : Type u} {σ : Type v} {τ : Type w} {ι : Type x} {β : Type y}

/-- Run commands one after the other. -/
def run (exec : α → σ → σ) : List α → σ → σ
  | [], state => state
  | command :: commands, state => run exec commands (exec command state)

/-- Code leads from states that represent an abstract one to states that represent its effect,
wherever that is admitted. Where it is not, nothing is said of the code. -/
def CarriesOut (exec : α → σ → σ) (represents : σ → τ → Prop) (admits : τ → Prop)
    (effect : τ → τ) (code : List α) : Prop :=
  ∀ state device, represents state device → admits device →
    represents (run exec code state) (effect device)

/-- The effect of a program. -/
def effects (effect : ι → τ → τ) : List ι → τ → τ
  | [], device => device
  | operation :: program, device => effects effect program (effect operation device)

/-- A program is admitted where each operation is, behind those before it. What an operation needs
can thus be brought about by an earlier one. -/
def Admits (admits : ι → τ → Prop) (effect : ι → τ → τ) : List ι → τ → Prop
  | [], _ => True
  | operation :: program, device =>
    admits operation device ∧ Admits admits effect program (effect operation device)

variable {exec : α → σ → σ} {represents : σ → τ → Prop}

/-- Commands are run one after the other. -/
theorem run_append (front back : List α) (state : σ) :
    run exec (front ++ back) state = run exec back (run exec front state) := by
  induction front generalizing state with
  | nil => rfl
  | cons command front inductionHypothesis => exact inductionHypothesis (exec command state)

/-- No code. -/
theorem CarriesOut.nil (admits : τ → Prop) :
    CarriesOut exec represents admits id ([] : List α) := fun _ _ related _ => related

/-- Code behind code. -/
theorem CarriesOut.append {admits later : τ → Prop} {first second : τ → τ} {front back : List α}
    (begins : CarriesOut exec represents admits first front)
    (ends : CarriesOut exec represents later second back) :
    CarriesOut exec represents (fun device => admits device ∧ later (first device))
      (fun device => second (first device)) (front ++ back) := by
  intro state device related admitted
  rw [run_append]
  exact ends _ _ (begins state device related admitted.1) admitted.2

/-- A program carries out its effect if each of its operations does.

Proof: by induction on the program; what is admitted of the rest is said of the effect of the
first operation, which its code has brought about. -/
theorem CarriesOut.program {admits : ι → τ → Prop} {effect : ι → τ → τ} {code : ι → List α}
    (program : List ι)
    (each : ∀ operation ∈ program,
      CarriesOut exec represents (admits operation) (effect operation) (code operation)) :
    CarriesOut exec represents (Admits admits effect program) (effects effect program)
      (program.flatMap code) := by
  induction program with
  | nil => exact .nil _
  | cons operation program inductionHypothesis =>
    have first := each operation (by simp)
    have rest := inductionHypothesis fun other member => each other (by simp [member])
    rw [List.flatMap_cons]
    exact first.append rest

/-- Each operation of an admitted program is admitted somewhere. -/
theorem Admits.somewhere {admits : ι → τ → Prop} {effect : ι → τ → τ} {program : List ι} {device : τ}
    (admitted : Admits admits effect program device) :
    ∀ operation ∈ program, ∃ before, admits operation before := by
  induction program generalizing device with
  | nil => intro operation member; cases member
  | cons operation program inductionHypothesis =>
    intro other member
    cases List.mem_cons.mp member with
    | inl same => exact ⟨device, same ▸ admitted.1⟩
    | inr later => exact inductionHypothesis admitted.2 other later

/-- The effects of programs one behind the other. -/
theorem effects_append (effect : ι → τ → τ) (front back : List ι) (device : τ) :
    effects effect (front ++ back) device = effects effect back (effects effect front device) := by
  induction front generalizing device with
  | nil => rfl
  | cons operation front inductionHypothesis => exact inductionHypothesis (effect operation device)

/-- They are admitted where the first one is and the other is behind it. -/
theorem admits_append (admits : ι → τ → Prop) (effect : ι → τ → τ) (front back : List ι)
    (device : τ) : Admits admits effect (front ++ back) device ↔
      Admits admits effect front device ∧ Admits admits effect back (effects effect front device) := by
  induction front generalizing device with
  | nil => simp [Admits, effects]
  | cons operation front inductionHypothesis =>
    exact (and_congr_right fun _ => inductionHypothesis (effect operation device)).trans and_assoc.symm

/-- What each operation of a program keeps, the program keeps. -/
theorem effects_keep {effect : ι → τ → τ} (observe : τ → β) (program : List ι)
    (each : ∀ operation ∈ program, ∀ device, observe (effect operation device) = observe device)
    (device : τ) : observe (effects effect program device) = observe device := by
  induction program generalizing device with
  | nil => rfl
  | cons operation program inductionHypothesis =>
    have rest := inductionHypothesis (fun other member => each other (by simp [member]))
      (effect operation device)
    exact rest.trans (each operation (by simp) device)

end CodeRefinement
