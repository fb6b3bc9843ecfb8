import XosLog.Logger.Barrier

/-!
# Progress

As long as no sink panics in the flush of a shutdown message, some thread can take
a step whenever a caller is inside a call.  A panic in that flush drops the
acknowledgement but leaves the writer in its loop, while the caller goes on to join
it.
-/

namespace XosLog.Logger

open Transition Writer

variable {n : Nat}

/-- The writer is about to handle a shutdown message. -/
def WriterPc.handlesShutdown : WriterPc n → Bool
  | .handling (.shutdown _) => true
  | _ => false

/-- The sinks' flush for a shutdown message ends without a panic. -/
def CalmShutdown (s : State n) (action : Action n) : Prop :=
  action = .writer → s.writer.handlesShutdown = true → (flushSlots s.slots).2 = false

instance (s : State n) (action : Action n) : Decidable (CalmShutdown s action) :=
  inferInstanceAs (Decidable (_ → _ → _))

/-- The writer is out of its loop once a shutdown message has been answered. -/
def Stopping (s : State n) : Prop :=
  ∀ c, Answered s .shutdown c → s.writer = .final ∨ s.writer = .exited

theorem stopping_init (setup : Setup) (owner : Fin n) : Stopping (State.init setup owner) := by
  intro c answered
  simp [Answered, State.init] at answered

attribute [local grind =] Function.update_apply

/-- A step that flushes calmly keeps the writer's promise to stop. -/
theorem Stopping.step {setup : Setup} {s next : State n} {action : Action n}
    (stopping : Stopping s) (coordinated : Coordinated s) (calm : CalmShutdown s action)
    (fired : Fires setup s action next) : Stopping next := by
  intro c answered
  have stopped := stopping c
  cases fired with
  | @handle msg here =>
      rcases answered with ⟨waiting, resolved⟩ | waiting
      · by_cases wasLive : s.acks (s.id c) = .live
        · obtain rfl := coordinated.handles_own here waiting wasLive resolved
          have flushed := calm rfl (by rw [here]; rfl)
          exact .inl (by simp [Control.message, turn_shutdown_calm setup.format _ flushed])
        · exact absurd (stopped (.inl ⟨waiting, wasLive⟩)) (by simp [here])
      · exact absurd (stopped (.inr waiting)) (by simp [here])
  | exit => exact .inr rfl
  | ctrlSent here =>
      have past := coordinated.resolved_past
      grind [Answered, CallerPc.afterSend]
  | _ => grind [Answered]

/-- A thread inside the logger can take a step. -/
def CanStep (setup : Setup) (s : State n) : Prop :=
  (step setup s .writer).isSome = true ∨ ∃ c, (step setup s (.caller c)).isSome = true

section

variable {setup : Setup} {s : State n}

/-- A writer that has not exited can take a step, unless it waits for a message. -/
theorem writer_canStep (alive : s.writer ≠ .exited)
    (busy : s.queue = [] → s.writer ≠ .recv true) : CanStep setup s := by
  apply Or.inl
  simp only [step, writerStep]
  cases here : s.writer with
  | recv waiting =>
      cases queued : s.queue with
      | nil =>
          obtain rfl : waiting = false := by
            by_contra waits
            exact busy queued (by rw [here, Bool.of_not_eq_false waits])
          by_cases disconnected : s.Disconnected <;> simp [disconnected]
      | cons => rfl
  | handling => rfl
  | final => rfl
  | exited => exact absurd here alive

/-- A caller can take a step when its step function says so. -/
theorem caller_canStep (c : Fin n) (enabled : (callerStep setup s c).isSome = true) :
    CanStep setup s :=
  .inr ⟨c, enabled⟩

/-- A writer that waits on an empty queue accepts a message. -/
theorem accepts_of_waiting (queued : s.queue = []) (waits : s.writer = .recv true) :
    s.Accepts setup := by
  by_cases room : setup.capacity = 0
  · exact .inr ⟨room, queued, waits⟩
  · exact .inl (by simp [queued, Nat.pos_of_ne_zero room])

/-- A caller that has locked the sender can proceed, or the writer can. -/
theorem sender_canStep (coordinated : Coordinated s) {c : Fin n} (locked : s.txLock = some c) :
    CanStep setup s := by
  have holds := (coordinated.sender c).mp locked
  -- While the writer runs, either the message is accepted or the writer has work.
  have sends : s.writer ≠ .exited → ¬ s.Accepts setup → CanStep setup s := fun alive full =>
    writer_canStep alive fun queued waits => full (accepts_of_waiting queued waits)
  cases here : (s.callers c).pc with
  | logSend record =>
      by_cases gone : s.writer = .exited
      · exact caller_canStep c (by simp [callerStep, here, gone])
      · by_cases accepts : s.Accepts setup
        · exact caller_canStep c (by simp [callerStep, here, gone, accepts])
        · exact sends gone accepts
  | logFull record => exact caller_canStep c (by simp [callerStep, here])
  | logOrphan record => exact caller_canStep c (by simp [callerStep, here])
  | ctrlSend control =>
      by_cases gone : s.writer = .exited
      · exact caller_canStep c (by simp [callerStep, here, gone])
      · by_cases accepts : s.Accepts setup
        · exact caller_canStep c (by simp [callerStep, here, gone, accepts])
        · exact sends gone accepts
  | _ => simp [here, CallerPc.locksSender] at holds

/-- While a caller waits for an acknowledgement, its message gives the writer work. -/
theorem wait_canStep (coordinated : Coordinated s) {c : Fin n} {control : Control}
    (waiting : (s.callers c).pc = .ctrlWait control) : CanStep setup s := by
  by_cases live : s.acks (s.id c) = .live
  · have onWay := coordinated.live_sent c control waiting live
    apply writer_canStep
    · intro gone
      simp [State.pipeline, WriterPc.inHand, gone, coordinated.drained gone] at onWay
    · intro queued waits
      simp [State.pipeline, WriterPc.inHand, waits, queued] at onWay
  · cases control <;> exact caller_canStep c (by simp [callerStep, waiting, live])

/-- A caller that joins the writer can proceed, or the writer can. -/
theorem join_canStep (stopping : Stopping s) {c : Fin n} (joins : (s.callers c).pc = .shutJoin) :
    CanStep setup s := by
  rcases stopping c (.inr ⟨rfl, .inr joins⟩) with leaving | gone
  · exact writer_canStep (by simp [leaving]) (by simp [leaving])
  · exact caller_canStep c (by simp [callerStep, joins, gone])

/-- Some thread can take a step whenever a caller is inside a call. -/
theorem Stopping.canStep (stopping : Stopping s) (coordinated : Coordinated s) {c : Fin n}
    (busy : (s.callers c).pc ≠ .idle) : CanStep setup s := by
  cases here : (s.callers c).pc with
  | idle => exact absurd here busy
  | logLoad entry clock stack =>
      apply caller_canStep c
      simp only [callerStep, here]
      split_ifs <;> rfl
  | logLock record =>
      cases held : s.txLock with
      | none => exact caller_canStep c (by simp [callerStep, here, held])
      | some other => exact sender_canStep coordinated held
  | logSend record =>
      exact sender_canStep coordinated ((coordinated.sender c).mpr (by rw [here]; rfl))
  | logFull record =>
      exact sender_canStep coordinated ((coordinated.sender c).mpr (by rw [here]; rfl))
  | logOrphan record =>
      exact sender_canStep coordinated ((coordinated.sender c).mpr (by rw [here]; rfl))
  | shutStore => exact caller_canStep c (by simp [callerStep, here])
  | ctrlLock control =>
      cases held : s.txLock with
      | none => exact caller_canStep c (by simp [callerStep, here, held])
      | some other => exact sender_canStep coordinated held
  | ctrlSend control =>
      exact sender_canStep coordinated ((coordinated.sender c).mpr (by rw [here]; rfl))
  | ctrlWait control => exact wait_canStep coordinated here
  | shutHandle =>
      cases held : s.handleLock with
      | none =>
          apply caller_canStep c
          simp only [callerStep, here, held]
          split_ifs <;> rfl
      | some other => exact join_canStep stopping ((coordinated.joiner other).mp held)
  | shutJoin => exact join_canStep stopping here

/-- A `shutdown` returns once the writer it joins has exited. -/
theorem step_joined {c : Fin n} (joins : (s.callers c).pc = .shutJoin)
    (gone : s.writer = .exited) : step setup s (.caller c) =
      some { s.controlReturns c .shutdown with handleLock := none } := by
  simp [step, callerStep, joins, gone]

/-- A `shutdown` that joins the writer returns after at most one step of the writer. -/
theorem join_released (stopping : Stopping s) {c : Fin n} (joins : (s.callers c).pc = .shutJoin) :
    ∃ actions released, (actions = [.caller c] ∨ actions = [.writer, .caller c]) ∧
      run (step setup) s actions = some released ∧ (released.callers c).pc = .idle := by
  rcases stopping c (.inr ⟨rfl, .inr joins⟩) with leaving | gone
  · have exits : step setup s .writer = some s.exit := by simp [step, writerStep, leaving]
    have returns := @step_joined n setup s.exit c joins rfl
    have ran : run (step setup) s [.writer, .caller c] =
        some { s.exit.controlReturns c .shutdown with handleLock := none } := by
      rw [run_cons, exits, Option.bind_some, run_cons, returns]
      rfl
    exact ⟨_, _, .inr rfl, ran, by simp⟩
  · have ran : run (step setup) s [.caller c] =
        some { s.controlReturns c .shutdown with handleLock := none } := by
      rw [run_cons, step_joined joins gone]
      rfl
    exact ⟨_, _, .inl rfl, ran, by simp⟩

end

/-- When every shutdown message is handled without a panic in its flush, some thread
can take a step in every reachable state with a caller inside a call, and a
`shutdown` that joins the writer can be released. -/
theorem deadlock_free {setup : Setup} {owner : Fin n} {actions : List (Action n)} {s : State n}
    (ran : run (step setup) (State.init setup owner) actions = some s)
    (calm : AllSteps (step setup) CalmShutdown (State.init setup owner) actions) {c : Fin n}
    (busy : (s.callers c).pc ≠ .idle) :
    ((step setup s .writer).isSome = true ∨ ∃ other, (step setup s (.caller other)).isSome = true) ∧
    ((s.callers c).pc = .shutJoin → ∃ actions released,
      (actions = [.caller c] ∨ actions = [.writer, .caller c]) ∧
        run (step setup) s actions = some released ∧ (released.callers c).pc = .idle) := by
  have preserved : ∀ {s : State n} {action next}, Coordinated s ∧ Stopping s →
      CalmShutdown s action → step setup s action = some next →
      Coordinated next ∧ Stopping next := by
    rintro s action next ⟨coordinated, stopping⟩ calm stepped
    have fired := fires_of_step stepped
    exact ⟨coordinated.step fired, stopping.step coordinated calm fired⟩
  obtain ⟨coordinated, stopping⟩ := run_invariant_of_allSteps preserved
    ⟨coordinated_init setup owner, stopping_init setup owner⟩ calm ran
  exact ⟨stopping.canStep coordinated busy, join_released stopping⟩

/-- A logger whose only sink never panics when it is flushed, and one whose sink
does. -/
def oneSink (behave : List SinkCall → Outcome) : Setup :=
  { blockingSetup with slots := [.new ⟨behave, []⟩ .trace] }

/-- A whole `shutdown` call of the only caller, up to joining the writer. -/
def shutdownCall : List (Action 1) :=
  [.call 0 (.control .shutdown), .caller 0, .caller 0, .caller 0, .writer, .writer, .caller 0,
    .caller 0]

theorem deadlock_free_joining :
    ∃ s : State 1, (s.callers 0).pc = .shutJoin ∧
      ((step (oneSink failing) s .writer).isSome = true ∨
        ∃ other, (step (oneSink failing) s (.caller other)).isSome = true) := by
  have observed : (run (step (oneSink failing)) (State.init (oneSink failing) (0 : Fin 1))
      shutdownCall).map (fun s => (s.callers 0).pc) = some .shutJoin := by
    decide +kernel
  obtain ⟨s, ran, joins⟩ := Option.map_eq_some_iff.mp observed
  exact ⟨s, joins, (deadlock_free ran (by decide +kernel) (by rw [joins]; exact nofun)).1⟩

/-- A panic in the flush of a shutdown message leaves the writer waiting for a
message and the caller waiting for the writer. -/
theorem not_deadlock_free :
    ¬ ∀ (n : Nat) (setup : Setup) (owner : Fin n) (actions : List (Action n)) (s : State n),
      run (step setup) (State.init setup owner) actions = some s →
      (∃ c, (s.callers c).pc ≠ .idle) →
      (step setup s .writer).isSome = true ∨
        ∃ c, (step setup s (.caller c)).isSome = true := by
  intro always
  have observed : (run (step (oneSink flushPanics)) (State.init (oneSink flushPanics) (0 : Fin 1))
      (shutdownCall ++ [.writer])).map (fun s => ((s.callers 0).pc,
        (step (oneSink flushPanics) s .writer).isSome,
        (step (oneSink flushPanics) s (.caller 0)).isSome)) = some (.shutJoin, false, false) := by
    decide +kernel
  obtain ⟨s, ran, seen⟩ := Option.map_eq_some_iff.mp observed
  simp only [Prod.mk.injEq] at seen
  obtain ⟨joins, writerStuck, callerStuck⟩ := seen
  rcases always 1 _ 0 _ s ran ⟨0, by rw [joins]; exact nofun⟩ with moves | ⟨c, moves⟩
  · exact Bool.false_ne_true (writerStuck.symm.trans moves)
  · obtain rfl : c = 0 := Subsingleton.elim c 0
    exact Bool.false_ne_true (callerStuck.symm.trans moves)

end XosLog.Logger
