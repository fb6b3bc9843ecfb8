import XosLog.Transition.Run

/-!
# Coming to rest

Where every allowed step makes a measure smaller, a run of allowed actions is no
longer than the measure of its first state, whatever the scheduler does, and can
be continued to a state in which no allowed action is enabled.
-/

namespace Transition

universe u v

variable {σ : Type u} {α : Type v} {step : Step σ α} {Allowed : α → Prop} {measure : σ → Nat}

/-- No allowed action is enabled. -/
def AtRest (step : Step σ α) (Allowed : α → Prop) (state : σ) : Prop :=
  ∀ action, Allowed action → step state action = none

section

variable (decreases : ∀ {state action next}, Allowed action → step state action = some next →
  measure next < measure state)

include decreases

theorem length_add_measure_le {state target : σ} {actions : List α}
    (allowed : ∀ action ∈ actions, Allowed action)
    (ran : run step state actions = some target) :
    actions.length + measure target ≤ measure state := by
  induction actions generalizing state with
  | nil =>
      cases ran
      exact Nat.le_of_eq (Nat.zero_add _)
  | cons action actions inductionHypothesis =>
      obtain ⟨first, later⟩ := List.forall_mem_cons.mp allowed
      obtain ⟨next, stepped, ran⟩ := (run_cons_eq_some step).mp ran
      have shorter := inductionHypothesis later ran
      have smaller := decreases first stepped
      rw [List.length_cons]
      omega

/-- Some run of allowed actions comes to rest. -/
theorem exists_run_atRest (state : σ) :
    ∃ actions target, (∀ action ∈ actions, Allowed action) ∧
      run step state actions = some target ∧ AtRest step Allowed target := by
  induction size : measure state using Nat.strongRecOn generalizing state with
  | ind size inductionHypothesis =>
      subst size
      by_cases rest : AtRest step Allowed state
      · exact ⟨[], state, nofun, rfl, rest⟩
      · obtain ⟨action, allowed, enabled⟩ :
            ∃ action, Allowed action ∧ step state action ≠ none := by
          simpa [AtRest] using rest
        obtain ⟨next, stepped⟩ := Option.ne_none_iff_exists'.mp enabled
        obtain ⟨actions, target, later, ran, rest⟩ :=
          inductionHypothesis _ (decreases allowed stepped) next rfl
        exact ⟨action :: actions, target, List.forall_mem_cons.mpr ⟨allowed, later⟩,
          (run_cons_eq_some step).mpr ⟨next, stepped, ran⟩, rest⟩

end

end Transition
