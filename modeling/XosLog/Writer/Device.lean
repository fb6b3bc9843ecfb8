import Mathlib.Data.List.Forall2
import Mathlib.Data.List.Induction
import XosLog.Writer.Answers

/-!
# Sinks with a state

The writer knows a boxed sink by the outcomes of its calls.  Those of a sink whose
state is modelled are the outcomes in the state that its earlier calls have led to.
-/

namespace XosLog.Writer

universe u

/-- A sink with a state of its own. -/
structure Device (σ : Type u) where
  /-- What a call does and how it ends, given the number of the calls before it. -/
  call : Nat → SinkCall → σ → σ × Outcome

namespace Device

variable {σ : Type u} (device : Device σ)

/-- The state after some calls, the first of which is number `k`. -/
def replayFrom : Nat → σ → List SinkCall → σ
  | _, state, [] => state
  | k, state, call :: calls => replayFrom (k + 1) (device.call k call state).1 calls

variable (start : σ)

/-- The state after all the calls of a sink. -/
def replay (calls : List SinkCall) : σ :=
  device.replayFrom 0 start calls

/-- The boxed sink of a device. -/
def boxed : Sink where
  behave calls :=
    match calls.getLast? with
    | none => .ok
    | some call => (device.call (calls.length - 1) call (device.replay start calls.dropLast)).2
  calls := []

theorem replayFrom_concat (k : Nat) (state : σ) (calls : List SinkCall) (call : SinkCall) :
    device.replayFrom k state (calls ++ [call]) =
      (device.call (k + calls.length) call (device.replayFrom k state calls)).1 := by
  induction calls generalizing k state with
  | nil => rfl
  | cons first calls inductionHypothesis =>
      rw [List.cons_append, replayFrom, inductionHypothesis, replayFrom, List.length_cons]
      congr 2
      omega

@[simp]
theorem replay_nil : device.replay start [] = start :=
  rfl

theorem replay_concat (calls : List SinkCall) (call : SinkCall) :
    device.replay start (calls ++ [call]) =
      (device.call calls.length call (device.replay start calls)).1 := by
  rw [replay, replayFrom_concat, Nat.zero_add, replay]

/-- Devices that treat the calls in the same way end in the same state. -/
theorem replay_congr {first second : Device σ} {start : σ} {calls : List SinkCall}
    (same : ∀ k < calls.length, first.call k = second.call k) :
    first.replay start calls = second.replay start calls := by
  induction calls using List.reverseRecOn with
  | nil => rfl
  | append_singleton calls call inductionHypothesis =>
      rw [List.length_append, List.length_singleton] at same
      rw [replay_concat, replay_concat, same calls.length (Nat.lt_succ_self _),
        inductionHypothesis fun k before => same k (Nat.lt_succ_of_lt before)]

variable {device start}

/-- A boxed sink ends a call as its device does in the present state. -/
theorem outcome_boxed {sink : Sink} (isBoxed : sink.behave = (device.boxed start).behave)
    (call : SinkCall) :
    sink.outcome call =
      (device.call sink.calls.length call (device.replay start sink.calls)).2 := by
  rw [Sink.outcome, isBoxed]
  simp [boxed]

/-- What every call of a boxed sink preserves. -/
theorem boxed_induction {Inv : Sink → σ → Prop} (initial : Inv (device.boxed start) start)
    (called : ∀ sink call state, Inv sink state →
      sink.outcome call = (device.call sink.calls.length call state).2 →
      Inv (sink.after call) (device.call sink.calls.length call state).1)
    {sink : Sink} (isBoxed : sink.behave = (device.boxed start).behave) :
    Inv sink (device.replay start sink.calls) := by
  obtain ⟨behave, calls⟩ := sink
  obtain rfl : behave = (device.boxed start).behave := isBoxed
  induction calls using List.reverseRecOn with
  | nil => exact initial
  | append_singleton calls call inductionHypothesis =>
      have isBoxed : (⟨(device.boxed start).behave, calls⟩ : Sink).behave =
          (device.boxed start).behave := rfl
      dsimp only at inductionHypothesis ⊢
      rw [replay_concat]
      exact called _ call _ inductionHypothesis (outcome_boxed isBoxed call)

end Device

/-- A boxed device has not been called. -/
@[simp]
theorem Device.boxed_answers {σ : Type} (device : Device σ) (start : σ) :
    (device.boxed start).answers = [] :=
  rfl

/-- A device that leaves something behind for every record: what has been left accounts
for the state. -/
theorem Device.exists_left {σ τ : Type} {device : Device σ} {start : σ}
    {Leaves : (LogEntry × Bytes) × Outcome → τ → Prop} {Holds : List τ → σ → Prop}
    (initial : Holds [] start)
    (flushed : ∀ k left state, Holds left state → Holds left (device.call k .flush state).1)
    (called : ∀ k entry formatted left state, Holds left state →
      ∃ item, Leaves ((entry, formatted), (device.call k (.writeEntry entry formatted) state).2)
          item ∧ Holds (left ++ [item]) (device.call k (.writeEntry entry formatted) state).1)
    {sink : Sink} (isBoxed : sink.behave = (device.boxed start).behave) :
    ∃ left, List.Forall₂ Leaves sink.answers left ∧
      Holds left (device.replay start sink.calls) := by
  refine @Device.boxed_induction _ device start (fun sink state =>
    ∃ left, List.Forall₂ Leaves sink.answers left ∧ Holds left state)
    ⟨[], .nil, initial⟩ ?_ sink isBoxed
  rintro sink call state ⟨left, all, holds⟩ ended
  cases call with
  | flush =>
      rw [Sink.answers_flush]
      exact ⟨left, all, flushed _ _ _ holds⟩
  | writeEntry entry formatted =>
      obtain ⟨item, leaves, after⟩ := called sink.calls.length entry formatted left state holds
      rw [← ended] at leaves
      rw [Sink.answers_writeEntry]
      exact ⟨left ++ [item], List.rel_append all (.cons leaves .nil), after⟩

end XosLog.Writer
