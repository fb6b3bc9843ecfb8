import XosLog.Transition.Run

/-!
# What some of the actions can bring about

In a system of several threads one may ask what a few of them can do alone.  A
goal is within the reach of a set of actions when some run of these actions leads
to it.  It is out of their reach when they preserve an invariant that excludes it,
and within it when one of them always makes a measure smaller.
-/

namespace Transition

universe u v

variable {σ : Type u} {α : Type v} {step : Step σ α} {Allowed : α → Prop} {Goal : σ → Prop}
  {state : σ}

/-- Allowed actions alone can lead from the state to one that meets the goal. -/
def CanReach (step : Step σ α) (Allowed : α → Prop) (Goal : σ → Prop) (state : σ) : Prop :=
  ∃ actions target, (∀ action ∈ actions, Allowed action) ∧
    run step state actions = some target ∧ Goal target

namespace CanReach

theorem here (met : Goal state) : CanReach step Allowed Goal state :=
  ⟨[], state, nofun, rfl, met⟩

theorem after {action : α} {next : σ} (allowed : Allowed action)
    (stepped : step state action = some next) (reaches : CanReach step Allowed Goal next) :
    CanReach step Allowed Goal state := by
  obtain ⟨actions, target, allAllowed, ran, met⟩ := reaches
  exact ⟨action :: actions, target, List.forall_mem_cons.mpr ⟨allowed, allAllowed⟩,
    (run_cons_eq_some step).mpr ⟨next, stepped, ran⟩, met⟩

/-- A goal that is reached by way of another one. -/
theorem trans {Middle : σ → Prop} (reaches : CanReach step Allowed Middle state)
    (further : ∀ middle, Middle middle → CanReach step Allowed Goal middle) :
    CanReach step Allowed Goal state := by
  obtain ⟨actions, middle, allAllowed, ran, met⟩ := reaches
  induction actions generalizing state with
  | nil =>
      obtain rfl : state = middle := Option.some.inj ran
      exact further state met
  | cons action actions inductionHypothesis =>
      obtain ⟨allowed, allAllowed⟩ := List.forall_mem_cons.mp allAllowed
      obtain ⟨next, stepped, ran⟩ := (run_cons_eq_some step).mp ran
      exact after allowed stepped (inductionHypothesis allAllowed ran)

/-- Short of the goal an allowed action can always make the measure smaller. -/
theorem of_measure {Inv : σ → Prop} (measure : σ → Nat)
    (progress : ∀ state, Inv state → Goal state ∨ ∃ action next, Allowed action ∧
      step state action = some next ∧ Inv next ∧ measure next < measure state)
    (initial : Inv state) : CanReach step Allowed Goal state := by
  induction size : measure state using Nat.strongRecOn generalizing state with
  | ind size inductionHypothesis =>
      subst size
      rcases progress state initial with met | ⟨action, next, allowed, stepped, kept, smaller⟩
      · exact here met
      · exact after allowed stepped (inductionHypothesis _ smaller kept rfl)

/-- What the allowed actions preserve and the goal excludes keeps them from it. -/
theorem not_of_invariant {Inv : σ → Prop}
    (preserved : ∀ {state action next}, Inv state → Allowed action →
      step state action = some next → Inv next)
    (misses : ∀ {state}, Inv state → ¬Goal state) (initial : Inv state) :
    ¬CanReach step Allowed Goal state := by
  rintro ⟨actions, target, allAllowed, ran, met⟩
  have kept : Inv target := by
    apply run_invariant_of_allSteps _ initial (allSteps_of_forall_mem allAllowed) ran
    intro state action next inv allowed stepped
    exact preserved inv allowed stepped
  exact misses kept met

end CanReach

end Transition
