import Mathlib.Tactic.Common

/-!
# Runs of labelled partial transitions

A system is given by a partial step function: a state and an action determine
the next state, and an action that is not enabled has none.  A run performs a
list of actions one after another.  This file collects the induction rules for
runs: an invariant of steps is an invariant of runs, also when only the steps
that meet a condition preserve it.
-/

namespace Transition

universe u v

/-- A labelled partial transition function. -/
abbrev Step (σ : Type u) (α : Type v) :=
  σ → α → Option σ

variable {σ : Type u} {α : Type v} (step : Step σ α)

/-- Perform the actions in order, failing at the first one that is not enabled. -/
def run : σ → List α → Option σ
  | state, [] => some state
  | state, action :: actions => (step state action).bind fun next => run next actions

@[simp]
theorem run_cons (state : σ) (action : α) (actions : List α) :
    run step state (action :: actions) =
      (step state action).bind fun next => run step next actions :=
  rfl

theorem run_append (state : σ) (first second : List α) :
    run step state (first ++ second) =
      (run step state first).bind fun middle => run step middle second := by
  induction first generalizing state with
  | nil => rfl
  | cons action first ih =>
      simp only [List.cons_append, run_cons, Option.bind_assoc]
      exact congrArg _ (funext ih)

theorem run_cons_eq_some {state target : σ} {action : α} {actions : List α} :
    run step state (action :: actions) = some target ↔
      ∃ next, step state action = some next ∧ run step next actions = some target :=
  Option.bind_eq_some_iff

theorem run_append_eq_some {state target : σ} {first second : List α} :
    run step state (first ++ second) = some target ↔
      ∃ middle, run step state first = some middle ∧ run step middle second = some target := by
  rw [run_append]
  exact Option.bind_eq_some_iff

theorem run_concat (state : σ) (actions : List α) (action : α) :
    run step state (actions ++ [action]) =
      (run step state actions).bind fun middle => step middle action := by
  rw [run_append]
  apply Option.bind_congr
  intro middle _
  exact Option.bind_fun_some _

theorem run_concat_eq_some {state target : σ} {actions : List α} {action : α} :
    run step state (actions ++ [action]) = some target ↔
      ∃ middle, run step state actions = some middle ∧ step middle action = some target := by
  rw [run_concat]
  exact Option.bind_eq_some_iff

variable {step}

/-- What every step preserves holds along every run. -/
theorem run_invariant {Inv : σ → Prop}
    (preserved : ∀ {state action next}, Inv state → step state action = some next → Inv next)
    {state target : σ} {actions : List α} (initial : Inv state)
    (ran : run step state actions = some target) : Inv target := by
  induction actions generalizing state with
  | nil =>
      cases ran
      exact initial
  | cons action actions ih =>
      obtain ⟨next, stepped, ran⟩ := (run_cons_eq_some step).mp ran
      exact ih (preserved initial stepped) ran

variable (step) in
/-- Every step of the run is taken in a state, and with an action, that meet a
condition. -/
def AllSteps (Meets : σ → α → Prop) : σ → List α → Prop
  | _, [] => True
  | state, action :: actions =>
      Meets state action ∧ ∀ next, step state action = some next → AllSteps Meets next actions

/-- A condition that always holds is met by every run. -/
theorem allSteps_of_forall {Meets : σ → α → Prop} (met : ∀ state action, Meets state action)
    (state : σ) (actions : List α) : AllSteps step Meets state actions := by
  induction actions generalizing state with
  | nil => trivial
  | cons action actions inductionHypothesis =>
      exact ⟨met state action, fun next _ => inductionHypothesis next⟩

theorem allSteps_append {Meets : σ → α → Prop} {state : σ} {first second : List α} :
    AllSteps step Meets state (first ++ second) ↔
      AllSteps step Meets state first ∧
        ∀ middle, run step state first = some middle → AllSteps step Meets middle second := by
  induction first generalizing state with
  | nil =>
      constructor
      · intro meets
        exact ⟨trivial, fun middle ran => Option.some.inj ran ▸ meets⟩
      · intro meets
        exact meets.2 state rfl
  | cons action first inductionHypothesis =>
      constructor
      · rintro ⟨met, later⟩
        refine ⟨⟨met, fun next stepped => (inductionHypothesis.mp (later next stepped)).1⟩, ?_⟩
        intro middle ran
        obtain ⟨next, stepped, ran⟩ := (run_cons_eq_some step).mp ran
        exact (inductionHypothesis.mp (later next stepped)).2 middle ran
      · rintro ⟨⟨met, later⟩, last⟩
        refine ⟨met, fun next stepped => inductionHypothesis.mpr ⟨later next stepped, ?_⟩⟩
        intro middle ran
        exact last middle ((run_cons_eq_some step).mpr ⟨next, stepped, ran⟩)

/-- Conditions that agree wherever an invariant holds are met by the same runs. -/
theorem allSteps_congr {Inv : σ → Prop} {Allowed : α → Prop} {First Second : σ → α → Prop}
    (preserved : ∀ {state action next}, Inv state → Allowed action →
      step state action = some next → Inv next)
    (same : ∀ {state action}, Inv state → Allowed action →
      (First state action ↔ Second state action))
    {state : σ} {actions : List α} (initial : Inv state)
    (allowed : ∀ action ∈ actions, Allowed action) :
    AllSteps step First state actions ↔ AllSteps step Second state actions := by
  induction actions generalizing state with
  | nil => rfl
  | cons action actions inductionHypothesis =>
      have first := allowed action List.mem_cons_self
      apply and_congr (same initial first)
      apply forall_congr'
      intro next
      apply imp_congr_right
      intro stepped
      exact inductionHypothesis (preserved initial first stepped)
        fun later member => allowed later (List.mem_cons_of_mem action member)

/-- What the steps that meet the condition preserve holds along every run all of
whose steps meet it. -/
theorem run_invariant_of_allSteps {Meets : σ → α → Prop} {Inv : σ → Prop}
    (preserved : ∀ {state action next}, Inv state → Meets state action →
      step state action = some next → Inv next)
    {state target : σ} {actions : List α} (initial : Inv state)
    (meets : AllSteps step Meets state actions)
    (ran : run step state actions = some target) : Inv target := by
  induction actions generalizing state with
  | nil =>
      cases ran
      exact initial
  | cons action actions ih =>
      obtain ⟨next, stepped, ran⟩ := (run_cons_eq_some step).mp ran
      exact ih (preserved initial meets.1 stepped) (meets.2 next stepped) ran

/-- Whether every step of a run meets a decidable condition can be computed. -/
instance AllSteps.decidable {Meets : σ → α → Prop}
    [∀ state action, Decidable (Meets state action)] :
    ∀ (state : σ) (actions : List α), Decidable (AllSteps step Meets state actions)
  | _, [] => isTrue trivial
  | state, action :: actions =>
      match stepped : step state action with
      | none => decidable_of_iff (Meets state action)
          ⟨fun met => ⟨met, fun _ taken => nomatch stepped.symm.trans taken⟩, And.left⟩
      | some next =>
          have : Decidable (AllSteps step Meets next actions) := AllSteps.decidable next actions
          decidable_of_iff (Meets state action ∧ AllSteps step Meets next actions)
            ⟨fun met => ⟨met.1, fun _ taken => Option.some.inj (stepped.symm.trans taken) ▸ met.2⟩,
              fun met => ⟨met.1, met.2 next stepped⟩⟩

/-- A condition on the action alone holds at every step when it holds of every
action. -/
theorem allSteps_of_forall_mem {Allowed : α → Prop} {state : σ} {actions : List α}
    (allowed : ∀ action ∈ actions, Allowed action) :
    AllSteps step (fun _ action => Allowed action) state actions := by
  induction actions generalizing state with
  | nil => trivial
  | cons action actions ih =>
      exact ⟨allowed action List.mem_cons_self,
        fun next _ => ih fun later member => allowed later (List.mem_cons_of_mem action member)⟩

end Transition
