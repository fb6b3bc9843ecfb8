import Mathlib.Algebra.BigOperators.Fin
import XosLog.Logger.Progress
import XosLog.Transition.Rest

/-!
# The logger comes to rest

Once no further call begins, the threads have a bounded number of steps left under
any scheduling.  Unless the flush of a shutdown message panics, they stop only when
every call has returned, and then the writer has handled all that was sent to it or
has exited.
-/

namespace XosLog.Logger

open Transition Writer

variable {n : Nat}

/-- A step of a thread inside the logger. -/
def Action.Internal : Action n → Prop
  | .caller _ | .writer => True
  | _ => False

/-- The steps that a call still takes at most, where the sending of a message counts
for the steps it costs the writer. -/
def CallerPc.work : CallerPc → Nat
  | .idle => 0
  | .logLoad .. => 6
  | .logLock _ => 5
  | .logSend _ => 4
  | .logFull _ | .logOrphan _ => 1
  | .shutStore => 9
  | .ctrlLock _ => 8
  | .ctrlSend _ => 7
  | .ctrlWait _ => 3
  | .shutHandle => 2
  | .shutJoin => 1

/-- The steps that the writer still takes at most, without another message. -/
def WriterPc.work : WriterPc n → Nat
  | .recv waiting => if waiting then 2 else 3
  | .handling _ => 4
  | .final => 1
  | .exited => 0

/-- What the threads still have to do. -/
def State.work (s : State n) : Nat :=
  (∑ c, (s.callers c).pc.work) + 3 * s.queue.length + s.writer.work

/-- The work of the callers when one of them has moved on. -/
theorem sum_work_update (callers : Fin n → Caller) (c : Fin n) (caller : Caller) :
    (∑ d, (Function.update callers c caller d).pc.work) + (callers c).pc.work =
      (∑ d, (callers d).pc.work) + caller.pc.work := by
  have split : ∀ f : Fin n → Caller,
      ∑ d, (f d).pc.work = (f c).pc.work + ∑ d ∈ Finset.univ.erase c, (f d).pc.work :=
    fun f => (Finset.add_sum_erase Finset.univ (fun d => (f d).pc.work) (Finset.mem_univ c)).symm
  have others : ∑ d ∈ Finset.univ.erase c, (Function.update callers c caller d).pc.work =
      ∑ d ∈ Finset.univ.erase c, (callers d).pc.work := by
    apply Finset.sum_congr rfl
    intro d member
    rw [Function.update_of_ne (Finset.ne_of_mem_erase member)]
  rw [split, split callers, others, Function.update_self]
  omega

/-- A caller that moves on leaves less to do when it pays for what it sends. -/
theorem work_lt_of_update {s next : State n} {c : Fin n} {caller : Caller}
    (callers : next.callers = Function.update s.callers c caller) (writer : next.writer = s.writer)
    (pays : caller.pc.work + 3 * next.queue.length <
      (s.callers c).pc.work + 3 * s.queue.length) : next.work < s.work := by
  have moved := sum_work_update s.callers c caller
  rw [State.work, State.work, callers, writer]
  omega

/-- Every step of a thread leaves less to do. -/
theorem work_lt {setup : Setup} {s next : State n} {action : Action n}
    (internal : action.Internal) (fired : Fires setup s action next) : next.work < s.work := by
  cases fired with
  | call | clone | drop => exact internal.elim
  | take here queued =>
      simp only [State.work, WriterPc.work, here, queued, List.length_cons]
      split <;> omega
  | hangUp here =>
      simp only [State.work, WriterPc.work, here]
      split <;> omega
  | park here => simp [State.work, WriterPc.work, here]
  | @handle msg here =>
      have fewer : (s.handle setup msg).writer.work ≤ 3 := by
        simp only
        split <;> simp [WriterPc.work]
      simp only [State.work, WriterPc.work, here] at fewer ⊢
      omega
  | exit here =>
      simp only [State.work, WriterPc.work, here, List.length_nil]
      omega
  | logSent here | ctrlSent here =>
      exact work_lt_of_update rfl rfl (by simp [here, CallerPc.work]; omega)
  | logClosed here | logAdmit here | logFilter here | logLock here | logGone here | logFull here
  | logRefuse here | logEmergency here | shutStore here | ctrlLock here | ctrlGone here
  | flushAcked here | shutAcked here | shutTake here | shutLate here | shutJoined here =>
      exact work_lt_of_update rfl rfl (by simp [here, CallerPc.work])

/-! ## At rest -/

/-- What is left when no thread can move. -/
structure Rested (s : State n) : Prop where
  idle : ∀ c, (s.callers c).pc = .idle
  unlocked : s.txLock = none ∧ s.handleLock = none
  returned : s.history.admitted ⊆ s.history.completed
  drained : s.writer = .exited ∨ (s.queue = [] ∧ s.history.handled = s.history.enqueued)

theorem rested_of_atRest {setup : Setup} {s : State n} (coordinated : Coordinated s)
    (stopping : Stopping s) (accounted : Accounted setup s)
    (rest : AtRest (step setup) Action.Internal s) : Rested s := by
  have stuck : ¬ CanStep setup s := by
    rintro (moves | ⟨c, moves⟩)
    · rw [rest .writer trivial] at moves
      contradiction
    · rw [rest (.caller c) trivial] at moves
      contradiction
  have idle : ∀ c, (s.callers c).pc = .idle := by
    intro c
    by_contra busy
    exact stuck (stopping.canStep coordinated busy)
  constructor
  · exact idle
  · constructor
    · cases held : s.txLock with
      | none => rfl
      | some c =>
          have holds := (coordinated.sender c).mp held
          rw [idle c] at holds
          contradiction
    · cases held : s.handleLock with
      | none => rfl
      | some c =>
          have joins := (coordinated.joiner c).mp held
          rw [idle c] at joins
          contradiction
  · intro key member
    rcases (accounted.admitted_split key).mp member with completed | ⟨_, inside⟩
    · exact completed
    · rw [idle] at inside
      contradiction
  · by_cases gone : s.writer = .exited
    · exact .inl gone
    · right
      obtain ⟨queued, waits⟩ : s.queue = [] ∧ s.writer = .recv true := by
        by_contra busy
        exact stuck (writer_canStep gone fun queued waits => busy ⟨queued, waits⟩)
      have order := accounted.fifo
      rw [accounted.in_hand, waits, queued, accounted.undiscarded gone] at order
      refine ⟨queued, ?_⟩
      simpa [WriterPc.inHand] using order.symm

/-- What steps without a panic in the flush of a shutdown message preserve. -/
theorem stopping_of_run {setup : Setup} {owner : Fin n} {actions : List (Action n)} {s : State n}
    (ran : run (step setup) (State.init setup owner) actions = some s)
    (calm : AllSteps (step setup) CalmShutdown (State.init setup owner) actions) : Stopping s := by
  have preserved : ∀ {s : State n} {action next}, Coordinated s ∧ Stopping s →
      CalmShutdown s action → step setup s action = some next →
      Coordinated next ∧ Stopping next := by
    rintro s action next ⟨coordinated, stopping⟩ calm stepped
    have fired := fires_of_step stepped
    exact ⟨coordinated.step fired, stopping.step coordinated calm fired⟩
  exact (run_invariant_of_allSteps preserved
    ⟨coordinated_init setup owner, stopping_init setup owner⟩ calm ran).2

/-- Once no further call begins, the threads take at most as many steps as there is
work, and some schedule comes to rest.  When no flush of a shutdown message panics,
every schedule that has come to rest has returned from every call, and the writer
has handled every record that was sent or has exited. -/
theorem comes_to_rest {setup : Setup} {owner : Fin n} {actions : List (Action n)} {s : State n}
    (ran : run (step setup) (State.init setup owner) actions = some s) :
    (∀ later target, (∀ action ∈ later, action.Internal) →
      run (step setup) s later = some target → later.length + target.work ≤ s.work) ∧
    (∃ later target, (∀ action ∈ later, action.Internal) ∧
      run (step setup) s later = some target ∧ AtRest (step setup) Action.Internal target) ∧
    ∀ later target,
      AllSteps (step setup) CalmShutdown (State.init setup owner) (actions ++ later) →
      run (step setup) s later = some target → AtRest (step setup) Action.Internal target →
      Rested target := by
  have decreases : ∀ {state : State n} {action : Action n} {next : State n}, action.Internal →
      step setup state action = some next → next.work < state.work :=
    fun internal stepped => work_lt internal (fires_of_step stepped)
  refine ⟨fun later target internal => length_add_measure_le decreases internal,
    exists_run_atRest decreases s, ?_⟩
  intro later target calm ranLater rest
  have whole := (run_append_eq_some _).mpr ⟨s, ran, ranLater⟩
  exact rested_of_atRest (coordinated_of_run whole) (stopping_of_run whole calm)
    (accounted_of_run whole) rest

/-- A caller is about to send a record and another has begun to flush. -/
def busyCalls (c d : Fin n) : List (Action n) :=
  .clone c d :: logCall c 0 ++ [.call d (.control .flush), .writer]

/-- The steps in which the record is sent and handled, and the flush answered. -/
def finishingSteps (c d : Fin n) : List (Action n) :=
  [.caller c, .writer, .writer, .writer, .caller d, .caller d, .writer, .writer, .writer, .caller d]

/-- Two callers are in the middle of their calls when no further one begins: the threads
soon come to rest, and in the schedule given the record has been handled by then. -/
theorem comes_to_rest_dropping :
    ∃ s target : State 2,
      run (step droppingSetup) (State.init droppingSetup 0) (busyCalls 0 1) = some s ∧
      (∀ later last, (∀ action ∈ later, action.Internal) →
        run (step droppingSetup) s later = some last → later.length + last.work ≤ s.work) ∧
      (∃ later last, (∀ action ∈ later, action.Internal) ∧
        run (step droppingSetup) s later = some last ∧
        AtRest (step droppingSetup) Action.Internal last) ∧
      run (step droppingSetup) s (finishingSteps 0 1) = some target ∧ Rested target ∧
      target.history.handled.length = 1 := by
  obtain ⟨target, whole⟩ := Option.isSome_iff_exists.mp (by decide +kernel :
    (run (step droppingSetup) (State.init droppingSetup (0 : Fin 2))
      (busyCalls 0 1 ++ finishingSteps 0 1)).isSome = true)
  obtain ⟨s, ran, ranLater⟩ := (run_append_eq_some _).mp whole
  have handled : (run (step droppingSetup) (State.init droppingSetup (0 : Fin 2))
      (busyCalls 0 1 ++ finishingSteps 0 1)).map (·.history.handled.length) = some 1 := by
    decide +kernel
  have calm : AllSteps (step droppingSetup) CalmShutdown (State.init droppingSetup (0 : Fin 2))
      (busyCalls 0 1 ++ finishingSteps 0 1) := by
    decide +kernel
  have last : ∀ action : Action 2, run (step droppingSetup) (State.init droppingSetup 0)
      (busyCalls 0 1 ++ finishingSteps 0 1 ++ [action]) = step droppingSetup target action := by
    intro action
    rw [run_concat, whole]
    rfl
  have rest : AtRest (step droppingSetup) Action.Internal target := by
    have callers : ∀ c, (run (step droppingSetup) (State.init droppingSetup (0 : Fin 2))
        (busyCalls 0 1 ++ finishingSteps 0 1 ++ [.caller c])).isNone = true := by
      decide +kernel
    have writer : (run (step droppingSetup) (State.init droppingSetup (0 : Fin 2))
        (busyCalls 0 1 ++ finishingSteps 0 1 ++ [.writer])).isNone = true := by
      decide +kernel
    intro action internal
    cases action with
    | caller c => exact Option.isNone_iff_eq_none.mp (last (.caller c) ▸ callers c)
    | writer => exact Option.isNone_iff_eq_none.mp (last .writer ▸ writer)
    | call | clone | drop => exact internal.elim
  rw [whole] at handled
  obtain ⟨bounded, comes, rested⟩ := comes_to_rest ran
  exact ⟨s, target, ran, bounded, comes, ranLater,
    rested (finishingSteps 0 1) target calm ranLater rest, Option.some.inj handled⟩

end XosLog.Logger
