import XosLog.Logger.Open

/-!
# Control calls as barriers

A record that is in the channel before a control message is handled before that
message is, so a control call that waits for its message to be dealt with returns
after the record has been handled.
-/

namespace XosLog.Logger

open Transition Writer

variable {n : Nat}

/-- The control call of a caller has been answered. -/
def Answered (s : State n) (control : Control) (c : Fin n) : Prop :=
  ((s.callers c).pc = .ctrlWait control ∧ s.acks (s.id c) ≠ .live) ∨
    (control = .shutdown ∧ ((s.callers c).pc = .shutHandle ∨ (s.callers c).pc = .shutJoin))

/-- The record has been handled, or the writer is still in its loop and the record
is in front of every message of the later calls. -/
def Ahead (later : Control → CallId n → Prop) (key : CallId n) (s : State n) : Prop :=
  key ∈ s.history.handled ∨ (s.writer ≠ .final ∧ s.writer ≠ .exited ∧
    ∃ before record after, s.pipeline = before ++ .log key record :: after ∧
      ∀ control ack, later control ack → control.message ack ∉ before)

/-- The record is ahead of the later calls, and none of them is answered before it
has been handled. -/
structure Barrier (later : Control → CallId n → Prop) (key : CallId n) (s : State n) : Prop where
  ahead : Ahead later key s
  answered : ∀ control c, later control (s.id c) → Answered s control c → key ∈ s.history.handled

/-- A control call is under way, unless the record has been handled. -/
def Waits (key : CallId n) (control : Control) (call : CallId n) (s : State n) : Prop :=
  key ∈ s.history.handled ∨ ((s.callers call.caller).calls = call.seq ∧
    (s.callers call.caller).pc.control = some control)

attribute [local grind =] Function.update_apply CallerPc.control

section

variable {setup : Setup} {s next : State n} {action : Action n} {later : Control → CallId n → Prop}
  {key : CallId n}

/-- A handled record stays handled. -/
theorem handled_step (fired : Fires setup s action next) (done : key ∈ s.history.handled) :
    key ∈ next.history.handled := by
  cases fired with
  | handle => exact List.mem_append_left _ done
  | _ => exact done

/-- A message that is sent stands behind the record. -/
theorem Ahead.append (ahead : Ahead later key s) (msg : Message (CallId n))
    (sent : next.pipeline = s.pipeline ++ [msg]) (loop : next.writer = s.writer)
    (same : next.history.handled = s.history.handled) : Ahead later key next := by
  rcases ahead with done | ⟨running, alive, before, record, after, split, clear⟩
  · exact .inl (same ▸ done)
  · refine .inr ⟨loop ▸ running, loop ▸ alive, before, record, after ++ [msg], ?_, clear⟩
    rw [sent, split]
    simp

/-- Handling the oldest message handles the record or leaves it ahead. -/
theorem Ahead.handle (ahead : Ahead later key s)
    (guarded : ∀ ack, .shutdown ack ∈ s.pipeline → later .shutdown ack)
    {msg : Message (CallId n)} (here : s.writer = .handling msg) :
    Ahead later key (s.handle setup msg) := by
  rcases ahead with done | ⟨_, _, before, record, after, split, clear⟩
  · exact .inl (List.mem_append_left _ done)
  · rw [pipeline_handling here] at split
    cases before with
    | nil =>
        obtain ⟨rfl, _⟩ := List.cons.inj split
        exact .inl (List.mem_append_right _ List.mem_cons_self)
    | cons oldest before =>
        obtain ⟨rfl, rest⟩ := List.cons.inj split
        have goesOn : (turn setup.format msg s.slots).2 = false := by
          by_contra stops
          obtain ⟨ack, rfl, _⟩ := turn_stops (Bool.of_not_eq_false stops)
          have isLater := guarded ack (by rw [pipeline_handling here]; exact List.mem_cons_self)
          exact clear .shutdown ack isLater List.mem_cons_self
        refine .inr ⟨by simp [goesOn], by simp [goesOn], before, record, after, ?_, ?_⟩
        · rw [pipeline_handle, rest]
          rfl
        · exact fun control ack isLater member =>
            clear control ack isLater (List.mem_cons_of_mem _ member)

theorem Ahead.step (ahead : Ahead later key s)
    (guarded : ∀ ack, .shutdown ack ∈ s.pipeline → later .shutdown ack)
    (fired : Fires setup s action next) : Ahead later key next := by
  cases fired with
  | logSent => exact ahead.append _ (List.append_assoc _ _ _).symm rfl rfl
  | ctrlSent => exact ahead.append _ (List.append_assoc _ _ _).symm rfl rfl
  | take here queued =>
      rcases ahead with done | ⟨_, _, before, record, after, split, clear⟩
      · exact .inl done
      · refine .inr ⟨nofun, nofun, before, record, after, ?_, clear⟩
        rw [pipeline_take here queued, split]
  | hangUp here drained =>
      rcases ahead with done | ⟨_, _, before, record, after, split, _⟩
      · exact .inl done
      · simp [State.pipeline, here, drained, WriterPc.inHand] at split
  | park here drained =>
      rcases ahead with done | ⟨_, _, before, record, after, split, _⟩
      · exact .inl done
      · simp [State.pipeline, here, drained, WriterPc.inHand] at split
  | handle here => exact ahead.handle guarded here
  | exit here =>
      rcases ahead with done | ⟨running, _⟩
      · exact .inl done
      · exact absurd here running
  | _ => exact ahead

/-- When the oldest message is that of a later call, the record has been handled. -/
theorem Ahead.handled_of_oldest (ahead : Ahead later key s) {control : Control} {ack : CallId n}
    (here : s.writer = .handling (control.message ack)) (isLater : later control ack) :
    key ∈ s.history.handled := by
  rcases ahead with done | ⟨_, _, before, record, after, split, clear⟩
  · exact done
  · rw [pipeline_handling here] at split
    cases before with
    | nil => exact absurd (List.cons.inj split).1 message_ne_log
    | cons oldest before =>
        obtain ⟨rfl, _⟩ := List.cons.inj split
        exact absurd List.mem_cons_self (clear control ack isLater)

theorem Ahead.handled_of_stopped (ahead : Ahead later key s)
    (stopped : s.writer = .final ∨ s.writer = .exited) : key ∈ s.history.handled := by
  rcases ahead with done | ⟨running, alive, _⟩
  · exact done
  · exact absurd stopped (by simp [running, alive])

theorem Barrier.answered_step (barrier : Barrier later key s) (coordinated : Coordinated s)
    (fired : Fires setup s action next) {control : Control} {c : Fin n}
    (isLater : later control (next.id c)) (answered : Answered next control c) :
    key ∈ next.history.handled := by
  have handled := barrier.answered
  cases fired with
  | @handle msg here =>
      apply List.mem_append_left
      rcases answered with ⟨waiting, resolved⟩ | waiting
      · by_cases wasLive : s.acks (s.id c) = .live
        · obtain rfl := coordinated.handles_own here waiting wasLive resolved
          exact barrier.ahead.handled_of_oldest here isLater
        · exact handled control c isLater (.inl ⟨waiting, wasLive⟩)
      · exact handled control c isLater (.inr waiting)
  | exit here => exact barrier.ahead.handled_of_stopped (.inl here)
  | ctrlSent here =>
      have past := coordinated.resolved_past
      grind [Answered, CallerPc.afterSend]
  | _ => grind [Answered]

/-- Every step keeps the record ahead of the later calls. -/
theorem Barrier.step (barrier : Barrier later key s) (coordinated : Coordinated s)
    (guarded : ∀ ack, .shutdown ack ∈ s.pipeline → later .shutdown ack)
    (fired : Fires setup s action next) : Barrier later key next where
  ahead := barrier.ahead.step guarded fired
  answered _ _ := barrier.answered_step coordinated fired

/-- A later call does not return before the record has been handled. -/
theorem Waits.step {control : Control} {call : CallId n} (waits : Waits key control call s)
    (barrier : Barrier later key s) (isLater : later control call)
    (fired : Fires setup s action next) : Waits key control call next := by
  rcases waits with done | ⟨current, inside⟩
  · exact .inl (handled_step fired done)
  · have named : s.id call.caller = call := (eq_id current.symm).symm
    have handled := barrier.answered control call.caller (named ▸ isLater)
    have stopped := barrier.ahead.handled_of_stopped
    cases fired <;> grind [Waits, Answered]

/-- In an open logger every enqueued record is ahead of calls that have not sent
their message yet. -/
theorem Barrier.of_enqueued (opened : Open s) (inv : Accounted setup s)
    (enqueued : key ∈ s.history.enqueued)
    (unsent : ∀ control ack, later control ack → control.message ack ∉ s.pipeline)
    (unanswered : ∀ control c, later control (s.id c) → ¬ Answered s control c) :
    Barrier later key s where
  ahead := by
    rcases inv.enqueued_cases enqueued with done | onWay | lost
    · exact .inl done
    · obtain ⟨record, member⟩ := exists_log_of_mem_logKeys onWay
      have running : ¬ (s.writer = .final ∨ s.writer = .exited) := by
        intro stopped
        have drained := (opened.hung_up stopped).2
        rcases stopped with here | here <;>
          simp [State.pipeline, here, drained, WriterPc.inHand] at member
      obtain ⟨before, after, split⟩ := List.append_of_mem member
      refine .inr ⟨by tauto, by tauto, before, record, after, split, ?_⟩
      intro control ack isLater sent
      exact unsent control ack isLater (by rw [split]; exact List.mem_append_left _ sent)
    · exact absurd lost (by simp [opened.none_lost.2])
  answered control c isLater answered := absurd answered (unanswered control c isLater)

end

/-! ## The three barriers -/

/-- After `before`, a caller begins a call in `start`, and the run goes on to
`finish`. -/
structure Span (setup : Setup) (owner : Fin n) (before : List (Action n)) (c : Fin n) (op : Op)
    (during : List (Action n)) (start finish : State n) : Prop where
  ranBefore : run (step setup) (State.init setup owner) before = some start
  ranDuring : run (step setup) start (.call c op :: during) = some finish

/-- The call that a caller begins in `start` has returned in `finish`. -/
def Returned (c : Fin n) (start finish : State n) : Prop :=
  (start.callers c).calls < (finish.callers c).calls

instance (c : Fin n) (start finish : State n) : Decidable (Returned c start finish) :=
  inferInstanceAs (Decidable (_ < _))

section

variable {setup : Setup} {owner c : Fin n} {before during : List (Action n)}
  {start finish : State n}

/-- A call that waits for a record has not returned before it was handled. -/
theorem Waits.handled {key : CallId n} {control : Control}
    (waits : Waits key control (start.id c) finish) (returned : Returned c start finish) :
    key ∈ finish.history.handled := by
  rcases waits with done | ⟨current, _⟩
  · exact done
  · exact absurd current returned.ne'

theorem flush_barrier (span : Span setup owner before c (.control .flush) during start finish)
    (none : ∀ action ∈ before ++ during, ¬ action.BeginsShutdown)
    (returned : Returned c start finish) : start.history.enqueued ⊆ finish.history.handled := by
  intro key enqueued
  obtain ⟨called, begun, ran⟩ := (run_cons_eq_some _).mp span.ranDuring
  have fired := fires_of_step begun
  have opened : Open called :=
    (open_of_run (fun action member => none action (List.mem_append_left _ member))
      span.ranBefore).step fired id
  have inv : Accounted setup called := (accounted_of_run span.ranBefore).step fired
  obtain ⟨here, current, enqueued⟩ : (called.callers c).pc = .ctrlLock .flush ∧
      called.id c = start.id c ∧ key ∈ called.history.enqueued := by
    cases fired
    simp [Op.start, enqueued]
  -- The call in question is the only later one.
  have barrier : Barrier (fun _ ack => ack = start.id c) key called := by
    apply Barrier.of_enqueued opened inv enqueued
    · rintro control ack rfl sent
      have waiting := (opened.controls_wait control _ sent).1
      simp [here] at waiting
    · rintro control other same answered
      obtain rfl : other = c := congrArg CallId.caller same
      simp [Answered, here] at answered
  have waits : Waits key .flush (start.id c) called := by
    refine .inr ⟨congrArg CallId.seq current, ?_⟩
    rw [here]
    rfl
  have preserved : ∀ {s : State n} {action next},
      Open s ∧ Barrier (fun _ ack => ack = start.id c) key s ∧ Waits key .flush (start.id c) s →
      ¬ action.BeginsShutdown → step setup s action = some next →
      Open next ∧ Barrier (fun _ ack => ack = start.id c) key next ∧
        Waits key .flush (start.id c) next := by
    rintro s action next ⟨opened, barrier, waits⟩ other stepped
    have fired := fires_of_step stepped
    refine ⟨opened.step fired other, barrier.step opened.toCoordinated ?_ fired,
      waits.step barrier rfl fired⟩
    exact fun ack sent => absurd sent (opened.messages_open ack)
  have allowed : AllSteps (step setup) (fun _ action => ¬ action.BeginsShutdown) called during :=
    allSteps_of_forall_mem fun action member => none action (List.mem_append_right before member)
  exact (run_invariant_of_allSteps preserved ⟨opened, barrier, waits⟩ allowed ran).2.2.handled
    returned

theorem shutdown_barrier {early between : List (Action n)} {earliest : State n}
    (span : Span setup owner (early ++ between) c (.control .shutdown) during start finish)
    (none : ∀ action ∈ early, ¬ action.BeginsShutdown)
    (ranEarly : run (step setup) (State.init setup owner) early = some earliest)
    (returned : Returned c start finish) :
    earliest.history.enqueued ⊆ finish.history.handled := by
  intro key enqueued
  have opened := open_of_run none ranEarly
  -- Every shutdown call is a later one.
  have barrier : Barrier (fun control _ => control = .shutdown) key earliest := by
    apply Barrier.of_enqueued opened (accounted_of_run ranEarly) enqueued
    · rintro control ack rfl
      exact opened.messages_open ack
    · rintro control other rfl answered
      have outside := opened.callers_open other
      rcases answered with ⟨here, _⟩ | ⟨_, here | here⟩ <;> exact outside (by rw [here]; rfl)
  obtain ⟨middle, ranMiddle, ranBetween⟩ := (run_append_eq_some _).mp span.ranBefore
  obtain rfl : earliest = middle := Option.some.inj (ranEarly.symm.trans ranMiddle)
  have preserved : ∀ {s : State n} {action next},
      Coordinated s ∧ Barrier (fun control _ => control = .shutdown) key s →
      step setup s action = some next →
      Coordinated next ∧ Barrier (fun control _ => control = .shutdown) key next := by
    rintro s action next ⟨coordinated, barrier⟩ stepped
    have fired := fires_of_step stepped
    exact ⟨coordinated.step fired, barrier.step coordinated (fun _ _ => rfl) fired⟩
  have atStart := run_invariant preserved ⟨opened.toCoordinated, barrier⟩ ranBetween
  obtain ⟨called, begun, ran⟩ := (run_cons_eq_some _).mp span.ranDuring
  have waits : Waits key .shutdown (start.id c) called := by
    cases fires_of_step begun
    apply Or.inr
    constructor <;> simp [Op.start, CallerPc.control]
  have waiting : ∀ {s : State n} {action next},
      (Coordinated s ∧ Barrier (fun control _ => control = .shutdown) key s) ∧
        Waits key .shutdown (start.id c) s → step setup s action = some next →
      (Coordinated next ∧ Barrier (fun control _ => control = .shutdown) key next) ∧
        Waits key .shutdown (start.id c) next :=
    fun inv stepped => ⟨preserved inv.1 stepped, inv.2.step inv.1.2 rfl (fires_of_step stepped)⟩
  exact (run_invariant waiting ⟨preserved atStart begun, waits⟩ ran).2.handled returned

/-- Once the logger is closed, a call that has not been admitted never is. -/
theorem unadmitted_step {s next : State n} {action : Action n} {key : CallId n}
    (fired : Fires setup s action next)
    (refused : s.closed = true ∧ key ∉ s.history.admitted) :
    next.closed = true ∧ key ∉ next.history.admitted := by
  cases fired with
  | logAdmit here isOpen => exact absurd (isOpen.symm.trans refused.1) Bool.false_ne_true
  | shutStore => exact ⟨rfl, refused.2⟩
  | _ => exact refused

theorem closed_barrier {entry : LogEntry} {clock : Int} {stack : List Context.Frame}
    (span : Span setup owner before c (.log entry clock stack) during start finish)
    (closed : start.closed = true) : start.id c ∉ finish.history.handled := by
  obtain ⟨called, begun, ran⟩ := (run_cons_eq_some _).mp span.ranDuring
  have inv := accounted_of_run span.ranBefore
  have fresh : start.id c ∉ start.history.admitted := by
    rw [inv.admitted_split]
    rintro (completed | ⟨_, sending⟩)
    · exact lt_irrefl _ (inv.completed_past _ completed)
    · cases fires_of_step begun with
      | call idle => simp [idle, CallerPc.sending] at sending
  have kept := run_invariant
    (fun refused stepped => unadmitted_step (fires_of_step stepped) refused)
    ⟨closed, fresh⟩ span.ranDuring
  have final : Accounted setup finish :=
    run_invariant (fun inv stepped => inv.step (fires_of_step stepped)) inv span.ranDuring
  exact fun handled => kept.2 (final.handled_subset_admitted handled)

end

/-- When `flush` returns and no shutdown has begun, every record enqueued before it
began has been handled.  When a `shutdown` returns, every record enqueued before the
earliest one began has been handled.  No record of a `log` call that began with the
closed flag set is ever handled. -/
theorem control_barriers (setup : Setup) (owner c : Fin n) (during : List (Action n))
    (start finish : State n) :
    (∀ before, Span setup owner before c (.control .flush) during start finish →
      (∀ action ∈ before ++ during, ¬ action.BeginsShutdown) → Returned c start finish →
      start.history.enqueued ⊆ finish.history.handled) ∧
    (∀ early between earliest,
      Span setup owner (early ++ between) c (.control .shutdown) during start finish →
      (∀ action ∈ early, ¬ action.BeginsShutdown) →
      run (step setup) (State.init setup owner) early = some earliest → Returned c start finish →
      earliest.history.enqueued ⊆ finish.history.handled) ∧
    ∀ before entry clock stack,
      Span setup owner before c (.log entry clock stack) during start finish →
      start.closed = true → start.id c ∉ finish.history.handled :=
  ⟨fun _ span none returned => flush_barrier span none returned,
    fun _ _ _ span none ranEarly returned => shutdown_barrier span none ranEarly returned,
    fun _ _ _ _ span closed => closed_barrier span closed⟩

/-- The span of a call, when both of its runs can be performed. -/
theorem exists_span {setup : Setup} {owner : Fin n} {before : List (Action n)} {c : Fin n} {op : Op}
    {during : List (Action n)} {seen : Type} {observe : State n → State n → seen} {value : seen}
    (observed : ((run (step setup) (State.init setup owner) before).bind fun start =>
      (run (step setup) start (.call c op :: during)).map (observe start)) = some value) :
    ∃ start finish, Span setup owner before c op during start finish ∧
      observe start finish = value := by
  obtain ⟨start, ranBefore, observed⟩ := Option.bind_eq_some_iff.mp observed
  obtain ⟨finish, ranDuring, observed⟩ := Option.map_eq_some_iff.mp observed
  exact ⟨start, finish, ⟨ranBefore, ranDuring⟩, observed⟩

/-- A logger with a queue of one record that waits for room. -/
def blockingSetup : Setup :=
  { droppingSetup with backpressure := .block }

/-- A record is logged and then flushed; a record is logged before a shutdown; and a
caller logs after a shutdown has closed the logger. -/
theorem control_barriers_blocking :
    (∃ start finish : State 1, start.history.enqueued = [⟨0, 0⟩] ∧
      start.history.enqueued ⊆ finish.history.handled) ∧
    (∃ earliest finish : State 1, earliest.history.enqueued = [⟨0, 0⟩] ∧
      earliest.history.enqueued ⊆ finish.history.handled) ∧
    ∃ start finish : State 2, start.id 1 = ⟨1, 0⟩ ∧ start.id 1 ∉ finish.history.handled := by
  refine ⟨?_, ?_, ?_⟩
  · obtain ⟨start, finish, span, observed⟩ := exists_span (by decide +kernel :
      ((run (step blockingSetup) (State.init blockingSetup (0 : Fin 1)) (logCall 0 1)).bind
        fun start => (run (step blockingSetup) start (.call 0 (.control .flush) ::
          [.caller 0, .writer, .caller 0, .writer, .writer, .writer, .caller 0])).map
          fun finish => (start.history.enqueued, decide (Returned 0 start finish))) =
        some ([⟨0, 0⟩], true))
    obtain ⟨enqueued, returned⟩ := Prod.mk.inj observed
    exact ⟨start, finish, enqueued, (control_barriers _ _ _ _ _ _).1 _ span
      (by simp [logCall, Action.BeginsShutdown]) (of_decide_eq_true returned)⟩
  · obtain ⟨start, finish, span, observed⟩ := exists_span (by decide +kernel :
      ((run (step blockingSetup) (State.init blockingSetup (0 : Fin 1))
          (logCall 0 1 ++ [])).bind
        fun start => (run (step blockingSetup) start (.call 0 (.control .shutdown) ::
          [.caller 0, .caller 0, .writer, .caller 0, .writer, .writer, .writer, .writer, .caller 0,
            .caller 0, .caller 0])).map
          fun finish => (start.history.enqueued, decide (Returned 0 start finish))) =
        some ([⟨0, 0⟩], true))
    obtain ⟨enqueued, returned⟩ := Prod.mk.inj observed
    exact ⟨start, finish, enqueued, (control_barriers _ _ _ _ _ _).2.1 _ [] _ span
      (by simp [logCall, Action.BeginsShutdown]) (by simpa using span.ranBefore)
      (of_decide_eq_true returned)⟩
  · obtain ⟨start, finish, span, observed⟩ := exists_span (by decide +kernel :
      ((run (step blockingSetup) (State.init blockingSetup (0 : Fin 2))
          [.clone 0 1, .call 0 (.control .shutdown), .caller 0]).bind
        fun start => (run (step blockingSetup) start (.call 1 (.log Writer.infoEntry 0 []) ::
          [.caller 1])).map fun finish => (start.id 1, start.closed)) = some (⟨1, 0⟩, true))
    obtain ⟨named, closed⟩ := Prod.mk.inj observed
    exact ⟨start, finish, named, (control_barriers _ _ _ _ _ _).2.2 _ _ _ _ span closed⟩

end XosLog.Logger
