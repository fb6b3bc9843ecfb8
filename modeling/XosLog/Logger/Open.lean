import XosLog.Logger.Accounting
import XosLog.Writer.Independence

/-!
# Runs without a shutdown

As long as no caller begins a `shutdown` call, no shutdown message is sent, and
the writer leaves its loop only when every handle is gone.  Every completed
record is then taken, queued or counted, and in the order of its caller.
-/

namespace XosLog.Logger

open Transition Writer

variable {n : Nat}

/-- The control call that a point belongs to. -/
def CallerPc.control : CallerPc → Option Control
  | .ctrlLock control | .ctrlSend control | .ctrlWait control => some control
  | .shutStore | .shutHandle | .shutJoin => some .shutdown
  | _ => none

/-- Only a shutdown message whose flush does not panic stops the writer. -/
theorem turn_stops {K : Type} {format : Format} {msg : Message K} {slots : List SinkSlot}
    (stops : (turn format msg slots).2 = true) :
    ∃ ack, msg = .shutdown ack ∧ (flushSlots slots).2 = false := by
  cases msg with
  | log key entry => rw [turn_log] at stops; contradiction
  | flush ack =>
      cases panicked : (flushSlots slots).2 with
      | true => rw [turn_control_panic format ack panicked (.inl rfl)] at stops; contradiction
      | false => rw [turn_flush_calm format ack panicked] at stops; contradiction
  | shutdown ack =>
      cases panicked : (flushSlots slots).2 with
      | true => rw [turn_control_panic format ack panicked (.inr rfl)] at stops; contradiction
      | false => exact ⟨ack, rfl, rfl⟩

/-- A call other than `shutdown` begins outside of it. -/
theorem control_start_ne {c : Fin n} {op : Op} (other : ¬ (Action.call c op).BeginsShutdown) :
    op.start.control ≠ some .shutdown := by
  rcases op with _ | (_ | _)
  · exact nofun
  · exact nofun
  · exact absurd trivial other

attribute [local grind =] Function.update_apply CallerPc.control WriterPc.inHand State.pipeline

/-- No shutdown has begun. -/
structure Open (s : State n) : Prop extends Coordinated s where
  callers_open : ∀ c, (s.callers c).pc.control ≠ some .shutdown
  messages_open : ∀ key, .shutdown key ∉ s.pipeline
  /-- The writer leaves its loop only when nobody can send any more. -/
  hung_up : s.writer = .final ∨ s.writer = .exited → s.Disconnected ∧ s.queue = []
  no_orphan : ∀ c record, (s.callers c).pc ≠ .logOrphan record
  none_lost : s.history.emergency = [] ∧ s.history.discarded = []

theorem open_init (setup : Setup) (owner : Fin n) : Open (State.init setup owner) where
  toCoordinated := coordinated_init setup owner
  callers_open _ := nofun
  messages_open _ := List.not_mem_nil
  hung_up left := by simp [State.init] at left
  no_orphan _ _ := CallerPc.noConfusion
  none_lost := ⟨rfl, rfl⟩

section

variable {setup : Setup} {s next : State n} {action : Action n}
  (inv : Open s) (fired : Fires setup s action next)

include inv

/-- A caller inside a call has a writer to send to. -/
theorem Open.alive {c : Fin n} (busy : (s.callers c).pc ≠ .idle) :
    s.writer ≠ .final ∧ s.writer ≠ .exited := by
  have owned := inv.owns c busy
  have hung := inv.hung_up
  grind [State.Disconnected]

include fired

theorem Open.callers_step (other : ¬ action.BeginsShutdown) (c : Fin n) :
    (next.callers c).pc.control ≠ some .shutdown := by
  have outside := inv.callers_open
  cases fired with
  | call => have start := control_start_ne other; grind
  | _ => grind

theorem Open.messages_step (key : CallId n) : .shutdown key ∉ next.pipeline := by
  have absent := inv.messages_open
  have outside := inv.callers_open
  cases fired with
  | handle here =>
      rw [pipeline_handle]
      have onWay := absent key
      rw [pipeline_handling here] at onWay
      exact fun queued => onWay (List.mem_cons_of_mem _ queued)
  | exit => exact List.not_mem_nil
  | @ctrlSent c control here => cases control <;> grind [Control.message]
  | _ => grind

theorem Open.hung_up_step (left : next.writer = .final ∨ next.writer = .exited) :
    next.Disconnected ∧ next.queue = [] := by
  have hung := inv.hung_up
  have owned := inv.owns
  have absent := inv.messages_open
  cases fired with
  | @handle msg here =>
      have stops : (turn setup.format msg s.slots).2 = true := by grind
      obtain ⟨ack, rfl, _⟩ := turn_stops stops
      exact absurd (by rw [pipeline_handling here]; exact List.mem_cons_self) (absent ack)
  | _ => grind [State.Disconnected]

theorem Open.no_orphan_step (c : Fin n) (record : LogEntry) :
    (next.callers c).pc ≠ .logOrphan record := by
  have none := inv.no_orphan
  cases fired with
  | @logGone c _ here gone =>
      have busy : (s.callers c).pc ≠ .idle := by simp [here]
      exact absurd gone (inv.alive busy).2
  | _ => grind

theorem Open.none_lost_step : next.history.emergency = [] ∧ next.history.discarded = [] := by
  have none := inv.none_lost
  cases fired with
  | logEmergency here => exact absurd here (inv.no_orphan _ _)
  | exit here =>
      have drained := (inv.hung_up (.inl here)).2
      simpa [drained] using none
  | _ => exact none

/-- A step that does not begin a shutdown leaves the logger open. -/
theorem Open.step (other : ¬ action.BeginsShutdown) : Open next where
  toCoordinated := inv.toCoordinated.step fired
  callers_open := inv.callers_step fired other
  messages_open := inv.messages_step fired
  hung_up := inv.hung_up_step fired
  no_orphan := inv.no_orphan_step fired
  none_lost := inv.none_lost_step fired

end

/-- In a run without a shutdown call, the logger stays open. -/
theorem open_of_run {setup : Setup} {owner : Fin n} {actions : List (Action n)} {s : State n}
    (none : ∀ action ∈ actions, ¬ action.BeginsShutdown)
    (ran : run (step setup) (State.init setup owner) actions = some s) : Open s :=
  run_invariant_of_allSteps (fun inv other stepped => inv.step (fires_of_step stepped) other)
    (open_init setup owner) (allSteps_of_forall_mem none) ran

/-! ## Exactly-once accounting -/

/-- The records the writer has taken, and behind them the queued ones. -/
def State.accepted (s : State n) : List (CallId n) :=
  s.history.taken ++ logKeys s.queue

section

variable {setup : Setup} {s : State n} (opened : Open s) (inv : Accounted setup s)

include opened inv

theorem enqueued_eq_accepted : s.history.enqueued = s.accepted := by
  rw [inv.fifo, opened.none_lost.2, List.append_nil]
  rfl

theorem completed_perm_accepted : s.history.completed.Perm (s.accepted ++ s.history.refused) := by
  have same := inv.completed_perm
  rwa [enqueued_eq_accepted opened inv, opened.none_lost.1, List.append_nil] at same

theorem accepted_sublist_completed : s.accepted.Sublist s.history.completed := by
  rw [← enqueued_eq_accepted opened inv]
  exact inv.enqueued_sublist

/-- When nothing is refused, every completed record is accepted, in order. -/
theorem accepted_eq_completed (block : setup.backpressure = .block) :
    s.accepted = s.history.completed := by
  have same := (completed_perm_accepted opened inv).length_eq
  rw [(inv.none_refused block).1, List.append_nil] at same
  exact (accepted_sublist_completed opened inv).eq_of_length same.symm

end

/-- In a run without a shutdown call, every admitted record whose call has returned
is taken, queued or counted as dropped, exactly one of the three and exactly once;
nothing is dropped under `Block`; and the accepted records of a caller are in the
order of its calls. -/
theorem records_accounted_once {setup : Setup} {owner : Fin n} {actions : List (Action n)}
    {s : State n} (none : ∀ action ∈ actions, ¬ action.BeginsShutdown)
    (ran : run (step setup) (State.init setup owner) actions = some s) :
    (∀ key, key ∈ s.history.completed ↔
      key ∈ s.history.admitted ∧ key.seq < (s.callers key.caller).calls) ∧
    s.history.completed.Perm (s.history.taken ++ logKeys s.queue ++ s.history.refused) ∧
    (s.history.taken ++ logKeys s.queue ++ s.history.refused).Nodup ∧
    s.history.taken.length + (logKeys s.queue).length + s.dropped = s.history.completed.length ∧
    (setup.backpressure = .block → s.dropped = 0) ∧
    ∀ c, ((ofCaller c s.history.completed).map CallId.seq).Pairwise (· < ·) ∧
      (ofCaller c (s.history.taken ++ logKeys s.queue)).Sublist (ofCaller c s.history.completed) ∧
      (setup.backpressure = .block →
        ofCaller c (s.history.taken ++ logKeys s.queue) = ofCaller c s.history.completed) := by
  have opened := open_of_run none ran
  have inv := accounted_of_run ran
  have same := completed_perm_accepted opened inv
  refine ⟨inv.mem_completed_iff, same, same.nodup_iff.mp inv.completed_nodup, ?_, ?_, fun c => ?_⟩
  · rw [inv.counted, same.length_eq, List.length_append, State.accepted, List.length_append]
  · intro block
    rw [inv.counted, (inv.none_refused block).1]
    rfl
  · refine ⟨inv.ofCaller_completed_ordered c, (accepted_sublist_completed opened inv).filter _, ?_⟩
    intro block
    exact congrArg (ofCaller c) (accepted_eq_completed opened inv block)

/-- A logger with a queue of one record that drops the newest ones. -/
def droppingSetup : Setup where
  capacity := 1
  backpressure := .dropNewest
  level := .info
  filter := ⟨[], .nil⟩
  timeOffsetSeconds := 0
  format := Writer.plainFormat
  slots := Writer.twoSlots

/-- A caller makes a whole `log` call. -/
def logCall (c : Fin n) (sendSteps : Nat) : List (Action n) :=
  .call c (.log Writer.infoEntry 0 []) :: List.replicate (2 + sendSteps) (.caller c)

/-- Two callers log three records: one is taken, one queued and one dropped. -/
theorem records_accounted_once_dropping :
    ∃ s, run (step droppingSetup) (State.init droppingSetup (0 : Fin 2))
        (.clone 0 1 :: logCall 0 1 ++ .writer :: logCall 1 1 ++ logCall 0 2) = some s ∧
      s.history.taken.length + (logKeys s.queue).length + s.dropped = s.history.completed.length ∧
      s.dropped = 1 := by
  obtain ⟨s, ran⟩ := Option.isSome_iff_exists.mp (by decide +kernel :
    (run (step droppingSetup) (State.init droppingSetup (0 : Fin 2))
      (.clone 0 1 :: logCall 0 1 ++ .writer :: logCall 1 1 ++ logCall 0 2)).isSome = true)
  have counted : ((run (step droppingSetup) (State.init droppingSetup (0 : Fin 2))
      (.clone 0 1 :: logCall 0 1 ++ .writer :: logCall 1 1 ++ logCall 0 2)).map State.dropped) =
        some 1 := by
    decide +kernel
  rw [ran] at counted
  refine ⟨s, ran, (records_accounted_once ?_ ran).2.2.2.1, Option.some.inj counted⟩
  simp [logCall, Action.BeginsShutdown]

end XosLog.Logger
