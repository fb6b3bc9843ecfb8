import Mathlib.Data.List.Induction
import XosLog.Transition.Run

/-!
# What a run shows

A view says what is seen of a step, from the state it is taken in and its
action.  The observations of a run are those of its steps, one after another.
What a state says about all that has been seen so far is proved by induction on
the actions, the last one first.
-/

namespace Transition

universe u v w

variable {σ : Type u} {α : Type v} {β : Type w}

/-- What is seen of a step. -/
abbrev View (σ : Type u) (α : Type v) (β : Type w) :=
  σ → α → List β

/-- The observations of a run, up to the first action that is not enabled. -/
def observed (step : Step σ α) (view : View σ α β) : σ → List α → List β
  | _, [] => []
  | state, action :: actions =>
      match step state action with
      | none => []
      | some next => view state action ++ observed step view next actions

section

variable {step : Step σ α} {view : View σ α β} {state middle next target : σ} {action : α}
  {first second : List α}

@[simp]
theorem observed_nil (state : σ) : observed step view state [] = [] :=
  rfl

theorem observed_cons (stepped : step state action = some next) (actions : List α) :
    observed step view state (action :: actions) =
      view state action ++ observed step view next actions := by
  simp only [observed, stepped]

theorem observed_append (ran : run step state first = some middle) :
    observed step view state (first ++ second) =
      observed step view state first ++ observed step view middle second := by
  induction first generalizing state with
  | nil =>
      cases ran
      rfl
  | cons action first inductionHypothesis =>
      obtain ⟨next, stepped, ran⟩ := (run_cons_eq_some step).mp ran
      rw [List.cons_append, observed_cons stepped, observed_cons stepped, List.append_assoc,
        inductionHypothesis ran]

theorem observed_concat (ran : run step state first = some middle)
    (stepped : step middle action = some next) :
    observed step view state (first ++ [action]) =
      observed step view state first ++ view middle action := by
  rw [observed_append ran, observed_cons stepped, observed_nil, List.append_nil]

/-- What holds of a state and of the actions that led to it. -/
theorem run_history {Inv : List α → σ → Prop} (initial : Inv [] state)
    (preserved : ∀ {before middle action next}, run step state before = some middle →
      Inv before middle → step middle action = some next → Inv (before ++ [action]) next)
    {actions : List α} (ran : run step state actions = some target) : Inv actions target := by
  induction actions using List.reverseRecOn generalizing target with
  | nil =>
      cases ran
      exact initial
  | append_singleton before action inductionHypothesis =>
      obtain ⟨middle, ranBefore, stepped⟩ := (run_concat_eq_some step).mp ran
      exact preserved ranBefore (inductionHypothesis ranBefore) stepped

end

end Transition
