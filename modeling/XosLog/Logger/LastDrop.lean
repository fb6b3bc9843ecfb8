import XosLog.Logger.Open
import XosLog.Transition.Within

/-!
# After the last handle is dropped

Dropping the last handle hangs up the sender and detaches the writer thread, which
nobody waits for.  What was on its way is still handled, later and by the writer
alone.
-/

namespace XosLog.Logger

open Transition Writer

variable {n : Nat}

attribute [local grind =] Function.update_apply WriterPc.inHand State.pipeline

section

variable {setup : Setup} {s next : State n}

/-- Without handles no caller can do anything. -/
theorem Coordinated.only_writer {action : Action n} (coordinated : Coordinated s)
    (last : s.Disconnected) (fired : Fires setup s action next) : action = .writer := by
  have owned := coordinated.owns
  cases fired <;> grind [State.Disconnected]

/-- The writer leaves the callers and what they have sent alone. -/
theorem writer_frame (fired : Fires setup s .writer next) :
    next.callers = s.callers ∧ next.history.enqueued = s.history.enqueued := by
  cases fired <;> exact ⟨rfl, rfl⟩

/-- The writer sends nothing. -/
theorem logKeys_pipeline_writer
    (fired : Fires setup s .writer next) : logKeys next.pipeline <:+ logKeys s.pipeline := by
  cases fired with
  | take here queued => simp [pipeline_take here queued]
  | handle here =>
      rw [pipeline_handle, pipeline_handling here, logKeys_cons]
      exact List.suffix_append _ _
  | hangUp here drained =>
      simp [State.pipeline, drained, WriterPc.inHand]
  | park here drained =>
      simp [State.pipeline, drained, WriterPc.inHand]
  | exit => exact List.nil_suffix

end

/-- What has been sent has been handled or is on its way. -/
theorem enqueued_eq_handled_append {setup : Setup} {s : State n} (opened : Open s)
    (inv : Accounted setup s) : s.history.enqueued = s.history.handled ++ logKeys s.pipeline := by
  rw [enqueued_eq_accepted opened inv, State.accepted, inv.in_hand, List.append_assoc,
    State.pipeline, logKeys_append]

/-- All that has been sent has been handled when none of it is on its way. -/
theorem all_handled_iff {setup : Setup} {s : State n} (opened : Open s) (inv : Accounted setup s) :
    (∀ key ∈ s.history.enqueued, key ∈ s.history.handled) ↔ logKeys s.pipeline = [] := by
  have split := enqueued_eq_handled_append opened inv
  constructor
  · intro all
    have once : s.history.enqueued.Nodup := inv.enqueued_sublist.nodup inv.completed_nodup
    rw [split] at once all
    apply List.eq_nil_iff_forall_not_mem.mpr
    intro key onWay
    have done := all key (List.mem_append_right _ onWay)
    exact (List.nodup_append.mp once).2.2 key done key onWay rfl
  · intro none key sent
    rwa [split, none, List.append_nil] at sent

/-! ## What the writer still does -/

/-- A state that the writer alone can leave. -/
structure Abandoned (setup : Setup) (s : State n) : Prop where
  opened : Open s
  accounted : Accounted setup s
  last : s.Disconnected

theorem Abandoned.step {setup : Setup} {s next : State n} {action : Action n}
    (abandoned : Abandoned setup s) (stepped : step setup s action = some next) :
    action = .writer ∧ Abandoned setup next := by
  have fired := fires_of_step stepped
  obtain rfl := abandoned.opened.only_writer abandoned.last fired
  refine ⟨rfl, abandoned.opened.step fired nofun, abandoned.accounted.step fired, ?_⟩
  intro c
  rw [(writer_frame fired).1]
  exact abandoned.last c

/-- The steps that the writer has yet to take for its own position. -/
def WriterPc.stage : WriterPc n → Nat
  | .handling _ => 3
  | .recv _ => 2
  | .final => 1
  | .exited => 0

/-- An upper bound on the steps that an abandoned writer takes. -/
def State.remaining (s : State n) : Nat :=
  2 * s.queue.length + s.writer.stage

/-- An abandoned writer goes on until it exits. -/
theorem Abandoned.progress {setup : Setup} {s : State n} (abandoned : Abandoned setup s) :
    s.writer = .exited ∨
      ∃ next, Logger.step setup s .writer = some next ∧ next.remaining < s.remaining := by
  simp only [Logger.step, writerStep, State.remaining]
  cases here : s.writer with
  | recv waiting =>
      cases queued : s.queue with
      | nil =>
          refine Or.inr ⟨s.proceed .final, if_pos abandoned.last, ?_⟩
          simp [queued, WriterPc.stage]
      | cons msg rest =>
          refine Or.inr ⟨_, rfl, ?_⟩
          simp only [WriterPc.stage, List.length_cons]
          omega
  | handling msg =>
      refine Or.inr ⟨_, rfl, ?_⟩
      dsimp only
      split <;> simp [WriterPc.stage]
  | final =>
      refine Or.inr ⟨_, rfl, ?_⟩
      simp only [WriterPc.stage, List.length_nil]
      omega
  | exited => exact Or.inl rfl

/-- Alone, the writer handles every record that was sent, and exits. -/
theorem Abandoned.drains {setup : Setup} {s : State n} (abandoned : Abandoned setup s) :
    CanReach (Logger.step setup) (· = .writer)
      (fun target => target.writer = .exited ∧
        ∀ key ∈ target.history.enqueued, key ∈ target.history.handled) s := by
  apply CanReach.of_measure State.remaining _ abandoned
  intro state abandoned
  rcases abandoned.progress with exited | ⟨next, stepped, smaller⟩
  · apply Or.inl
    refine ⟨exited, (all_handled_iff abandoned.opened abandoned.accounted).mpr ?_⟩
    rw [State.pipeline, exited, abandoned.opened.drained exited]
    rfl
  · exact Or.inr ⟨.writer, next, rfl, stepped, (abandoned.step stepped).2, smaller⟩

/-- Once nothing is on its way, nothing is ever on its way again. -/
theorem Abandoned.run_empty {setup : Setup} {s target : State n} {after : List (Action n)}
    (abandoned : Abandoned setup s) (empty : logKeys s.pipeline = [])
    (ran : run (Logger.step setup) s after = some target) :
    Abandoned setup target ∧ logKeys target.pipeline = [] := by
  have preserved : ∀ {s : State n} {action next}, Abandoned setup s ∧ logKeys s.pipeline = [] →
      Logger.step setup s action = some next →
      Abandoned setup next ∧ logKeys next.pipeline = [] := by
    rintro s action next ⟨abandoned, empty⟩ stepped
    obtain ⟨rfl, abandoned⟩ := abandoned.step stepped
    have fewer := logKeys_pipeline_writer (fires_of_step stepped)
    rw [empty] at fewer
    exact ⟨abandoned, List.suffix_nil.mp fewer⟩
  exact run_invariant preserved ⟨abandoned, empty⟩ ran

/-- In a run without a shutdown call, the drop of the last handle has drained the
logger when it returns, and ever after, exactly when no record was on its way to
the writer before it. -/
theorem last_drop_drains_iff {setup : Setup} {owner : Fin n} {before : List (Action n)}
    {s next : State n} {c : Fin n} (none : ∀ action ∈ before, ¬action.BeginsShutdown)
    (ran : run (step setup) (State.init setup owner) before = some s)
    (dropped : step setup s (.drop c) = some next) (last : next.Disconnected) :
    (∀ after target, run (step setup) next after = some target →
      ∀ key ∈ target.history.enqueued, key ∈ target.history.handled) ↔
        logKeys s.pipeline = [] := by
  have fired := fires_of_step dropped
  have abandoned : Abandoned setup next :=
    ⟨(open_of_run none ran).step fired nofun, (accounted_of_run ran).step fired, last⟩
  have same : next.pipeline = s.pipeline := by
    cases fired
    rfl
  rw [← same]
  constructor
  · intro always
    exact (all_handled_iff abandoned.opened abandoned.accounted).mp (always [] next rfl)
  · intro empty after target ranAfter
    obtain ⟨abandoned, empty⟩ := abandoned.run_empty empty ranAfter
    exact (all_handled_iff abandoned.opened abandoned.accounted).mpr empty

/-- A caller logs a record and flushes the logger. -/
def loggedAndFlushed (c : Fin n) : List (Action n) :=
  logCall c 1 ++ [.writer, .writer, .call c (.control .flush), .caller c, .caller c, .writer,
    .writer, .caller c]

theorem last_drop_drains_iff_flushed :
    ∃ s next : State 1,
      run (step droppingSetup) (State.init droppingSetup 0) (loggedAndFlushed 0) = some s ∧
      step droppingSetup s (.drop 0) = some next ∧
      ((∀ after target, run (step droppingSetup) next after = some target →
        ∀ key ∈ target.history.enqueued, key ∈ target.history.handled) ↔
          logKeys s.pipeline = []) := by
  have observed : (run (step droppingSetup) (State.init droppingSetup (0 : Fin 1))
      (loggedAndFlushed 0)).map (fun s => ((s.callers 0).pc, (s.callers 0).handles)) =
        some (.idle, 1) := by
    decide +kernel
  obtain ⟨s, ran, seen⟩ := Option.map_eq_some_iff.mp observed
  obtain ⟨idle, handles⟩ := Prod.mk.inj seen
  have dropped : step droppingSetup s (.drop 0) = some (s.setHandles 0 0) := by
    simp [step, idle, handles]
  have last : (s.setHandles 0 0).Disconnected := by
    intro c
    obtain rfl : c = 0 := Subsingleton.elim c 0
    simp
  refine ⟨s, s.setHandles 0 0, ran, dropped, last_drop_drains_iff ?_ ran dropped last⟩
  simp [loggedAndFlushed, logCall, Action.BeginsShutdown]

/-- A record that is queued when the last handle is dropped is still queued when
the drop returns. -/
theorem not_last_drop_drains :
    ¬∀ (n : Nat) (setup : Setup) (owner : Fin n) (actions : List (Action n)) (s : State n),
      (∀ action ∈ actions, ¬action.BeginsShutdown) →
      run (step setup) (State.init setup owner) actions = some s → s.Disconnected →
        ∀ key ∈ s.history.enqueued, key ∈ s.history.handled := by
  intro always
  have observed : (run (step droppingSetup) (State.init droppingSetup (0 : Fin 1))
      (logCall 0 1 ++ [.drop 0])).map (fun s => ((s.callers 0).handles, s.history.enqueued,
        s.history.handled)) = some (0, [⟨0, 0⟩], []) := by
    decide +kernel
  obtain ⟨s, ran, seen⟩ := Option.map_eq_some_iff.mp observed
  simp only [Prod.mk.injEq] at seen
  obtain ⟨handles, enqueued, handled⟩ := seen
  have last : s.Disconnected := by
    intro c
    obtain rfl : c = 0 := Subsingleton.elim c 0
    exact handles
  have drained := always 1 droppingSetup 0 _ s (by simp [logCall, Action.BeginsShutdown]) ran last
  rw [enqueued, handled] at drained
  exact List.not_mem_nil (drained _ List.mem_cons_self)

end XosLog.Logger
