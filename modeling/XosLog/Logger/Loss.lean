import XosLog.Logger.Progress

/-!
# Records lost around a shutdown

The closed flag is read before the sender is locked, so a record can be sent behind
a shutdown message, or after the writer has left its loop.  Such a record is dropped
with the receiver, and nothing else ever loses one.
-/

namespace XosLog.Logger

open Transition Writer

variable {n : Nat}

/-- The caller is about to send a record. -/
def CallerPc.sendsLog : CallerPc → Bool
  | .logSend _ => true
  | _ => false

/-- No record is queued behind a shutdown message that stops the writer, and none is
accepted once the writer is out of its loop. -/
def LeavesNone (setup : Setup) (s : State n) (action : Action n) : Prop :=
  (action = .writer → s.writer.handlesShutdown = true → (flushSlots s.slots).2 = false →
    logKeys s.queue = []) ∧
  ∀ c, action = .caller c → (s.callers c).pc.sendsLog = true →
    s.writer = .final → ¬ s.Accepts setup

instance (setup : Setup) (s : State n) (action : Action n) :
    Decidable (LeavesNone setup s action) :=
  inferInstanceAs (Decidable (_ ∧ _))

/-! ## Runs that leave no record behind -/

/-- No record has been left behind. -/
structure NothingLeft (s : State n) : Prop where
  final_empty : s.writer = .final → logKeys s.queue = []
  none_discarded : s.history.discarded = []

theorem nothingLeft_init (setup : Setup) (owner : Fin n) :
    NothingLeft (State.init setup owner) where
  final_empty := nofun
  none_discarded := rfl

section

variable {setup : Setup} {s next : State n} {action : Action n}

/-- The writer leaves its loop over a shutdown message that it flushed calmly. -/
theorem handlesShutdown_of_stops {msg : Message (CallId n)} (here : s.writer = .handling msg)
    (leaves : (s.handle setup msg).writer = .final) :
    s.writer.handlesShutdown = true ∧ (flushSlots s.slots).2 = false := by
  have stops : (turn setup.format msg s.slots).2 = true := by
    by_contra goesOn
    simp [goesOn] at leaves
  obtain ⟨ack, rfl, calm⟩ := turn_stops stops
  exact ⟨by rw [here]; rfl, calm⟩

theorem NothingLeft.final_empty_step (left : NothingLeft s) (meets : LeavesNone setup s action)
    (fired : Fires setup s action next) (final : next.writer = .final) :
    logKeys next.queue = [] := by
  have empty := left.final_empty
  cases fired with
  | @logSent c record here alive accepts =>
      exact absurd accepts (meets.2 c rfl (by rw [here]; rfl) final)
  | ctrlSent => simp [empty final, logKeys_cons]
  | handle here =>
      obtain ⟨shuts, calm⟩ := handlesShutdown_of_stops here final
      exact meets.1 rfl shuts calm
  | hangUp here drained => simp [drained]
  | take => contradiction
  | park => contradiction
  | exit => contradiction
  | _ => exact empty final

/-- A step that leaves no record behind keeps it so. -/
theorem NothingLeft.step (left : NothingLeft s) (meets : LeavesNone setup s action)
    (fired : Fires setup s action next) : NothingLeft next where
  final_empty := left.final_empty_step meets fired
  none_discarded := by
    have none := left.none_discarded
    cases fired with
    | exit here => simp [none, left.final_empty here]
    | _ => exact none

/-! ## Records that are left behind -/

/-- The record is lost: the writer never receives again, or has dropped it. -/
def Doomed (key : CallId n) (s : State n) : Prop :=
  (s.writer = .final ∧ key ∈ logKeys s.queue) ∨ key ∈ s.history.discarded

/-- A lost record stays lost. -/
theorem Doomed.step {key : CallId n} (doomed : Doomed key s) (fired : Fires setup s action next) :
    Doomed key next := by
  rcases doomed with ⟨final, queued⟩ | gone
  · cases fired with
    | logSent | ctrlSent =>
        refine .inl ⟨final, ?_⟩
        rw [logKeys_append]
        exact List.mem_append_left _ queued
    | take here => simp [here] at final
    | hangUp here => simp [here] at final
    | park here => simp [here] at final
    | handle here => simp [here] at final
    | exit => exact .inr (List.mem_append_right _ queued)
    | _ => exact .inl ⟨final, queued⟩
  · cases fired with
    | exit => exact .inr (List.mem_append_left _ gone)
    | _ => exact .inr gone

/-- A step that leaves a record behind loses one. -/
theorem exists_doomed (fired : Fires setup s action next)
    (leaves : ¬ LeavesNone setup s action) : ∃ key, Doomed key next := by
  unfold LeavesNone at leaves
  rcases not_and_or.mp leaves with leaves | leaves
  · push Not at leaves
    obtain ⟨rfl, shuts, calm, queued⟩ := leaves
    obtain ⟨key, queued⟩ := List.exists_mem_of_ne_nil _ queued
    cases fired with
    | @handle msg here =>
        cases msg with
        | shutdown ack =>
            exact ⟨key, .inl ⟨by simp [turn_shutdown_calm setup.format ack calm], queued⟩⟩
        | log | flush => simp [here, WriterPc.handlesShutdown] at shuts
    | take here | hangUp here | park here | exit here =>
        simp [here, WriterPc.handlesShutdown] at shuts
  · push Not at leaves
    obtain ⟨c, rfl, sends, final, accepts⟩ := leaves
    cases fired with
    | @logSent c record here =>
        refine ⟨s.id c, .inl ⟨final, ?_⟩⟩
        simp [logKeys_cons, logKey]
    | logGone here gone => simp [gone] at final
    | logFull here alive full => exact absurd accepts full
    | logClosed here | logAdmit here | logFilter here | logLock here | logRefuse here
    | logEmergency here | shutStore here | ctrlLock here | ctrlGone here | ctrlSent here
    | flushAcked here | shutAcked here | shutTake here | shutLate here | shutJoined here =>
        simp [here, CallerPc.sendsLog] at sends

/-- A run that discards no record leaves none behind. -/
theorem leavesNone_of_run {actions : List (Action n)} {target : State n}
    (ran : run (step setup) s actions = some target) (exited : target.writer = .exited)
    (kept : target.history.discarded = []) :
    AllSteps (step setup) (LeavesNone setup) s actions := by
  induction actions generalizing s with
  | nil => trivial
  | cons action actions ih =>
      obtain ⟨next, stepped, ran⟩ := (run_cons_eq_some _).mp ran
      constructor
      · by_contra leaves
        obtain ⟨key, doomed⟩ := exists_doomed (fires_of_step stepped) leaves
        rcases run_invariant (fun doomed stepped => Doomed.step doomed (fires_of_step stepped))
          doomed ran with ⟨final, _⟩ | gone
        · simp [exited] at final
        · simp [kept] at gone
      · intro found taken
        obtain rfl : next = found := Option.some.inj (stepped.symm.trans taken)
        exact ih ran

/-! ## The exact condition -/

/-- Once all calls have returned and the writer has exited, every admitted record is
accounted for exactly when none was discarded. -/
theorem accounted_iff_none_discarded (coordinated : Coordinated s) (inv : Accounted setup s)
    (returned : ∀ c, (s.callers c).pc = .idle) (exited : s.writer = .exited) :
    (∀ key ∈ s.history.admitted, key ∈ s.history.handled ∨ key ∈ s.history.refused ∨
      key ∈ s.history.emergency) ↔ s.history.discarded = [] := by
  constructor
  · intro accounted
    by_contra lost
    obtain ⟨key, gone⟩ := List.exists_mem_of_ne_nil _ lost
    have distinct := inv.outcomes_nodup
    rw [inv.fifo, inv.in_hand] at distinct
    have admitted : key ∈ s.history.admitted := by
      apply inv.completed_subset_admitted
      apply inv.enqueued_sublist.subset
      rw [inv.fifo]
      exact List.mem_append_right _ gone
    have once := accounted key admitted
    simp only [List.nodup_append, List.mem_append] at distinct
    grind
  · intro kept key member
    have completed : key ∈ s.history.completed := by
      apply ((inv.admitted_split key).mp member).resolve_right
      rintro ⟨_, sending⟩
      simp [returned, CallerPc.sending] at sending
    have outcome := inv.completed_perm.mem_iff.mp completed
    rw [List.mem_append, List.mem_append] at outcome
    rcases outcome with (enqueued | refused) | emergency
    · rcases inv.enqueued_cases enqueued with handled | onWay | gone
      · exact .inl handled
      · simp [State.pipeline, WriterPc.inHand, exited, coordinated.drained exited] at onWay
      · simp [kept] at gone
    · exact .inr (.inl refused)
    · exact .inr (.inr emergency)

end

/-- In a run to a state where all calls have returned and the writer has exited, every
admitted record was handled, counted as dropped or written to standard error if and
only if the writer left no record behind when it stopped. -/
theorem no_silent_loss_iff {setup : Setup} {owner : Fin n} {actions : List (Action n)}
    {s : State n} (ran : run (step setup) (State.init setup owner) actions = some s)
    (returned : ∀ c, (s.callers c).pc = .idle) (exited : s.writer = .exited) :
    (∀ key ∈ s.history.admitted, key ∈ s.history.handled ∨ key ∈ s.history.refused ∨
      key ∈ s.history.emergency) ↔
    AllSteps (step setup) (LeavesNone setup) (State.init setup owner) actions := by
  rw [accounted_iff_none_discarded (coordinated_of_run ran) (accounted_of_run ran) returned exited]
  constructor
  · exact leavesNone_of_run ran exited
  · intro meets
    exact (run_invariant_of_allSteps
      (fun left meets stepped => NothingLeft.step left meets (fires_of_step stepped))
      (nothingLeft_init setup owner) meets ran).none_discarded

/-- A caller has read the closed flag when another one shuts the logger down: its
record is sent before or behind the shutdown message. -/
def shutdownRace (sendsFirst : Bool) : List (Action 2) :=
  let sends := [.caller 0, .caller 0]
  let shuts := [.caller 1, .caller 1]
  [.clone 0 1, .call 0 (.log Writer.infoEntry 0 []), .caller 0, .call 1 (.control .shutdown),
    .caller 1] ++ (if sendsFirst then sends ++ shuts else shuts ++ sends)

/-- The writer works off what is queued and exits, and `shutdown` returns. -/
def afterRace (handled : Nat) : List (Action 2) :=
  List.replicate (2 * handled + 1) .writer ++ [.caller 1, .caller 1, .caller 1]

/-- A logger with a queue of two messages. -/
def raceSetup : Setup :=
  { blockingSetup with capacity := 2 }

theorem no_silent_loss_iff_ordered :
    ∃ s : State 2, run (step raceSetup) (State.init raceSetup 0)
        (shutdownRace true ++ afterRace 2) = some s ∧
      ∀ key ∈ s.history.admitted, key ∈ s.history.handled ∨ key ∈ s.history.refused ∨
        key ∈ s.history.emergency := by
  have observed : (run (step raceSetup) (State.init raceSetup (0 : Fin 2))
      (shutdownRace true ++ afterRace 2)).map (fun s =>
        (decide (∀ c, (s.callers c).pc = .idle), decide (s.writer = .exited))) =
      some (true, true) := by
    decide +kernel
  obtain ⟨s, ran, seen⟩ := Option.map_eq_some_iff.mp observed
  obtain ⟨returned, exited⟩ := Prod.mk.inj seen
  exact ⟨s, ran, (no_silent_loss_iff ran (of_decide_eq_true returned)
    (of_decide_eq_true exited)).mpr (by decide +kernel)⟩

/-- A record that is sent behind the shutdown message is silently lost. -/
theorem not_no_silent_loss :
    ¬ ∀ (n : Nat) (setup : Setup) (owner : Fin n) (actions : List (Action n)) (s : State n),
      run (step setup) (State.init setup owner) actions = some s →
      (∀ c, (s.callers c).pc = .idle) → s.writer = .exited →
      ∀ key ∈ s.history.admitted, key ∈ s.history.handled ∨ key ∈ s.history.refused ∨
        key ∈ s.history.emergency := by
  intro always
  have observed : (run (step raceSetup) (State.init raceSetup (0 : Fin 2))
      (shutdownRace false ++ afterRace 1)).map (fun s =>
        ((decide (∀ c, (s.callers c).pc = .idle), decide (s.writer = .exited)), s.history)) =
      some ((true, true), { (⟨[], [], [], [], [], [], [], []⟩ : History 2) with
        admitted := [⟨0, 0⟩], completed := [⟨0, 0⟩], enqueued := [⟨0, 0⟩],
        discarded := [⟨0, 0⟩] }) := by
    decide +kernel
  obtain ⟨s, ran, seen⟩ := Option.map_eq_some_iff.mp observed
  simp only [Prod.mk.injEq] at seen
  obtain ⟨⟨returned, exited⟩, history⟩ := seen
  have found := always 2 _ 0 _ s ran (of_decide_eq_true returned) (of_decide_eq_true exited) ⟨0, 0⟩
  simp [history] at found

end XosLog.Logger
