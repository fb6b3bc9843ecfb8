import XosLog.Logger.Open
import XosLog.Transition.Observe
import XosLog.Writer.Turns

/-!
# The concurrent logger is a sequential one

Whatever the interleaving, the sinks and standard error look as if one thread
had handed the records to the writer's loop one after another: in an order that
keeps the program order of each caller and never reverses two calls of which one
returned before the other began.
-/

namespace XosLog.Logger

open Transition Writer

variable {n : Nat}

/-! ## What a run shows -/

/-- The calls that begin. -/
def begun : View (State n) (Action n) (CallId n × Op)
  | s, .call c op => [(s.id c, op)]
  | _, _ => []

/-- The messages that the writer handles. -/
def served : View (State n) (Action n) (Message (CallId n))
  | s, .writer => s.writer.inHand
  | _, _ => []

/-- What is written to standard error, with the call whose emergency it is, if it
is not written by the writer thread. -/
def spilled (setup : Setup) : View (State n) (Action n) (Option (CallId n) × Bytes)
  | s, .caller c =>
      match (s.callers c).pc with
      | .logOrphan record => [(some (s.id c), setup.emergencyBytes record)]
      | _ => []
  | s, .writer =>
      match s.writer with
      | .handling msg =>
          (turn setup.format msg s.slots).1.stderr.map fun write => (none, write.2)
      | _ => []
  | _, _ => []

/-- The record of a `log` call: enabled, and stamped with what the call read. -/
def Stamped (setup : Setup) (calls : List (CallId n × Op)) (key : CallId n) (record : LogEntry) :
    Prop :=
  ∃ entry clock stack, (key, .log entry clock stack) ∈ calls ∧
    setup.isEnabledFor entry.level entry.target = true ∧ record = setup.stamp entry clock stack

theorem Stamped.append {setup : Setup} {calls : List (CallId n × Op)} {key : CallId n}
    {record : LogEntry} (stamped : Stamped setup calls key record)
    (later : List (CallId n × Op)) : Stamped setup (calls ++ later) key record := by
  obtain ⟨entry, clock, stack, member, rest⟩ := stamped
  exact ⟨entry, clock, stack, List.mem_append_left _ member, rest⟩

/-- The record that a point of a `log` call carries once it is admitted. -/
def CallerPc.record : CallerPc → Option LogEntry
  | .logLock record | .logSend record | .logFull record | .logOrphan record => some record
  | _ => none

attribute [local grind =] Function.update_apply CallerPc.record WriterPc.inHand State.pipeline

/-- Proceeding inside a call keeps its name. -/
theorem id_goto (s : State n) (c d : Fin n) (pc : CallerPc) : (s.goto c pc).id d = s.id d := by
  by_cases same : d = c
  · subst same
    simp
  · simp [same]

/-! ## The content of the records -/

/-- Where the records of the calls that have begun are. -/
structure Traced (setup : Setup) (calls : List (CallId n × Op)) (s : State n) : Prop where
  past : ∀ call ∈ calls, call.1.seq < (s.callers call.1.caller).calls ∨
    (call.1.seq = (s.callers call.1.caller).calls ∧ (s.callers call.1.caller).pc ≠ .idle)
  nodup : (calls.map Prod.fst).Nodup
  loading : ∀ c entry clock stack, (s.callers c).pc = .logLoad entry clock stack →
    (s.id c, .log entry clock stack) ∈ calls
  carried : ∀ c record, (s.callers c).pc.record = some record → Stamped setup calls (s.id c) record
  onWay : ∀ key record, .log key record ∈ s.pipeline → Stamped setup calls key record

theorem traced_init (setup : Setup) (owner : Fin n) : Traced setup [] (State.init setup owner) where
  past _ member := absurd member List.not_mem_nil
  nodup := List.nodup_nil
  loading _ _ _ _ here := by simp [State.init] at here
  carried _ _ here := by simp [State.init, CallerPc.record] at here
  onWay _ _ member := by simp [State.init, State.pipeline, WriterPc.inHand] at member

section

variable {setup : Setup} {calls : List (CallId n × Op)} {s next : State n} {action : Action n}
  (traced : Traced setup calls s) (fired : Fires setup s action next)

include traced fired

theorem Traced.past_step (call : CallId n × Op) (member : call ∈ calls ++ begun s action) :
    call.1.seq < (next.callers call.1.caller).calls ∨
      (call.1.seq = (next.callers call.1.caller).calls ∧
        (next.callers call.1.caller).pc ≠ .idle) := by
  have past := traced.past
  obtain ⟨⟨caller, seq⟩, op⟩ := call
  cases fired with
  | call => grind [begun]
  | _ => grind [begun]

theorem Traced.nodup_step : ((calls ++ begun s action).map Prod.fst).Nodup := by
  have nodup := traced.nodup
  have past := traced.past
  cases fired with
  | @call c op idle =>
      rw [List.map_append, List.nodup_append]
      refine ⟨nodup, by simp [begun], ?_⟩
      rintro key earlier _ (_ | ⟨_, ⟨⟩⟩) rfl
      obtain ⟨call, member, same⟩ := List.mem_map.mp earlier
      have before := past call member
      rw [same] at before
      grind
  | _ => simpa [begun] using nodup

theorem Traced.loading_step {c : Fin n} {entry : LogEntry} {clock : Int}
    {stack : List Context.Frame} (here : (next.callers c).pc = .logLoad entry clock stack) :
    (next.id c, .log entry clock stack) ∈ calls ++ begun s action := by
  have loading := traced.loading
  cases fired with
  | @call d op idle =>
      by_cases same : c = d
      · subst same
        rcases op with ⟨found, reading, frames⟩ | (_ | _)
        · simp only [Function.update_self, Op.start, CallerPc.logLoad.injEq] at here
          obtain ⟨rfl, rfl, rfl⟩ := here
          simp [begun]
        · simp [Op.start] at here
        · simp [Op.start] at here
      · simp only [Function.update_of_ne same] at here
        rw [id_goto]
        exact List.mem_append_left _ (loading c entry clock stack here)
  | _ => grind [begun]

theorem Traced.carried_step {c : Fin n} {record : LogEntry}
    (here : (next.callers c).pc.record = some record) :
    Stamped setup (calls ++ begun s action) (next.id c) record := by
  have carried := traced.carried
  apply Stamped.append
  cases fired with
  | @call d op idle =>
      rcases op with _ | (_ | _) <;> grind [Op.start]
  | @logAdmit d entry clock stack load isOpen enabled =>
      have sameId : (s.admitLog d (setup.stamp entry clock stack)).id c = s.id c := id_goto s d c _
      rw [sameId]
      by_cases same : c = d
      · subst same
        simp only [Function.update_self, CallerPc.record, Option.some.injEq] at here
        exact ⟨entry, clock, stack, traced.loading c entry clock stack load, enabled, here.symm⟩
      · simp only [Function.update_of_ne same] at here
        exact carried c record here
  | _ => grind

theorem Traced.onWay_step {key : CallId n} {record : LogEntry}
    (member : .log key record ∈ next.pipeline) :
    Stamped setup (calls ++ begun s action) key record := by
  have onWay := traced.onWay
  have carried := traced.carried
  apply Stamped.append
  cases fired with
  | handle here =>
      rw [pipeline_handle] at member
      exact onWay key record (by rw [pipeline_handling here]; exact List.mem_cons_of_mem _ member)
  | exit => simp at member
  | _ => grind

theorem Traced.step : Traced setup (calls ++ begun s action) next where
  past := traced.past_step fired
  nodup := traced.nodup_step fired
  loading _ _ _ _ := traced.loading_step fired
  carried _ _ := traced.carried_step fired
  onWay _ _ := traced.onWay_step fired

end

/-! ## What is written -/

/-- What a step has to do with the sinks and with standard error: it handles a
message, writes an emergency, flushes for the last time, or nothing. -/
inductive Shows (setup : Setup) (s next : State n) :
    List (Message (CallId n)) → List (Option (CallId n) × Bytes) → Prop
  | handles {msg} (here : s.writer = .handling msg) (after : next = s.handle setup msg) :
      Shows setup s next [msg]
        ((turn setup.format msg s.slots).1.stderr.map fun write => (none, write.2))
  | emergency {c record} (here : (s.callers c).pc = .logOrphan record)
      (after : next = s.emergencyWrite setup c record) :
      Shows setup s next [] [(some (s.id c), setup.emergencyBytes record)]
  | exits (here : s.writer = .final) (after : next = s.exit) : Shows setup s next [] []
  | silent (slots : next.slots = s.slots) (stderr : next.stderr = s.stderr)
      (handled : next.history.handled = s.history.handled)
      (emergency : next.history.emergency = s.history.emergency)
      (exited : next.writer = .exited ↔ s.writer = .exited)
      (final : s.writer = .final → next.writer = .final) : Shows setup s next [] []

theorem shows_of_fires {setup : Setup} {s next : State n} {action : Action n}
    (fired : Fires setup s action next) :
    Shows setup s next (served s action) (spilled setup s action) := by
  cases fired with
  | handle here => simpa [served, spilled, here, WriterPc.inHand] using Shows.handles here rfl
  | logEmergency here => simpa [served, spilled, here] using Shows.emergency here rfl
  | exit here => simpa [served, spilled, here, WriterPc.inHand] using Shows.exits here rfl
  | take here | hangUp here | park here =>
      simp only [served, spilled, here, WriterPc.inHand]
      exact .silent rfl rfl rfl rfl (by simp [here]) (by simp [here])
  | call | clone | drop => exact .silent rfl rfl rfl rfl Iff.rfl id
  | logClosed here | logAdmit here | logFilter here | logLock here | logGone here | logSent here
  | logFull here | logRefuse here | shutStore here | ctrlLock here | ctrlGone here
  | ctrlSent here | flushAcked here | shutAcked here | shutTake here | shutLate here
  | shutJoined here =>
      simp only [served, spilled, here]
      exact .silent rfl rfl rfl rfl Iff.rfl id

/-- The sinks and standard error, from the messages that have been handled and the
emergency writes. -/
structure Explained (setup : Setup) (calls : List (CallId n × Op))
    (msgs : List (Message (CallId n))) (spills : List (Option (CallId n) × Bytes))
    (s : State n) : Prop where
  handled_eq : logKeys msgs = s.history.handled
  content : ∀ key record, .log key record ∈ msgs → Stamped setup calls key record
  running : s.writer ≠ .final → s.writer ≠ .exited →
    KeepsRunning setup.format msgs setup.slots
  slots_eq : s.slots =
    if s.writer = .exited then (writerLoop setup.format msgs setup.slots).1
    else (receive setup.format msgs setup.slots).1
  stderr_eq : s.stderr = spills.map Prod.snd
  /-- The writer's share of standard error. -/
  own_eq : (spills.filter fun spill => spill.1 = none).map Prod.snd =
    (receive setup.format msgs setup.slots).2.map Prod.snd
  emergency_eq : spills.filterMap Prod.fst = s.history.emergency
  emergencies : ∀ key bytes, (some key, bytes) ∈ spills →
    ∃ record, Stamped setup calls key record ∧ bytes = setup.emergencyBytes record

theorem explained_init (setup : Setup) (owner : Fin n) :
    Explained setup [] [] [] (State.init setup owner) where
  handled_eq := rfl
  content _ _ member := absurd member List.not_mem_nil
  running _ _ := trivial
  slots_eq := rfl
  stderr_eq := rfl
  own_eq := rfl
  emergency_eq := rfl
  emergencies _ _ member := absurd member List.not_mem_nil

section

variable {setup : Setup} {calls : List (CallId n × Op)} {msgs shown : List (Message (CallId n))}
  {spills spilt : List (Option (CallId n) × Bytes)} {s next : State n}
  (explained : Explained setup calls msgs spills s)

include explained

/-- While a message is handled the loop has not been stopped. -/
theorem Explained.handling {msg : Message (CallId n)} (here : s.writer = .handling msg) :
    KeepsRunning setup.format msgs setup.slots ∧
      s.slots = (receive setup.format msgs setup.slots).1 := by
  have running := explained.running (by simp [here]) (by simp [here])
  have slots := explained.slots_eq
  rw [if_neg (by simp [here])] at slots
  exact ⟨running, slots⟩

variable (shows : Shows setup s next shown spilt)

include shows

theorem Explained.handled_step : logKeys (msgs ++ shown) = next.history.handled := by
  have handled := explained.handled_eq
  cases shows with
  | handles here after => simp [after, handled, logKeys_cons]
  | emergency here after => simp [after, handled]
  | exits here after => simp [after, handled]
  | silent slots stderr same => rw [List.append_nil, same, handled]

theorem Explained.running_step (inLoop : next.writer ≠ .final) (alive : next.writer ≠ .exited) :
    KeepsRunning setup.format (msgs ++ shown) setup.slots := by
  cases shows with
  | @handles msg here after =>
      obtain ⟨running, slots⟩ := explained.handling here
      subst after
      apply keepsRunning_concat setup.format running
      rw [← slots]
      cases stops : (turn setup.format msg s.slots).2 with
      | false => rfl
      | true => exact absurd (if_pos stops) inLoop
  | emergency here after =>
      subst after
      rw [List.append_nil]
      exact explained.running inLoop alive
  | exits here after =>
      subst after
      exact absurd rfl alive
  | silent _ _ _ _ exited final =>
      rw [List.append_nil]
      exact explained.running (fun here => inLoop (final here))
        (fun here => alive (exited.mpr here))

theorem Explained.slots_step : next.slots =
    if next.writer = .exited then (writerLoop setup.format (msgs ++ shown) setup.slots).1
    else (receive setup.format (msgs ++ shown) setup.slots).1 := by
  cases shows with
  | @handles msg here after =>
      obtain ⟨running, slots⟩ := explained.handling here
      subst after
      have alive : (s.handle setup msg).writer ≠ .exited := by
        simp only
        split <;> exact nofun
      rw [if_neg alive, receive_concat setup.format running, ← slots]
  | emergency here after =>
      subst after
      rw [List.append_nil]
      exact explained.slots_eq
  | exits here after =>
      have slots := explained.slots_eq
      rw [if_neg (by simp [here])] at slots
      subst after
      rw [if_pos rfl, List.append_nil]
      exact congrArg (fun slots => (flushSlots slots).1) slots
  | silent slots _ _ _ exited =>
      simp only [List.append_nil, slots, exited]
      exact explained.slots_eq

theorem Explained.stderr_step : next.stderr = (spills ++ spilt).map Prod.snd := by
  have stderr := explained.stderr_eq
  cases shows with
  | handles here after => simp [after, stderr, Function.comp_def]
  | emergency here after => simp [after, stderr]
  | exits here after => simp [after, stderr]
  | silent _ same => rw [List.append_nil, same, stderr]

theorem Explained.own_step : ((spills ++ spilt).filter fun spill => spill.1 = none).map Prod.snd =
    (receive setup.format (msgs ++ shown) setup.slots).2.map Prod.snd := by
  have own := explained.own_eq
  cases shows with
  | @handles msg here after =>
      obtain ⟨running, slots⟩ := explained.handling here
      have all : ∀ spill ∈ (turn setup.format msg s.slots).1.stderr.map fun write =>
          ((none, write.2) : Option (CallId n) × Bytes), decide (spill.1 = none) = true := by
        intro spill member
        obtain ⟨write, -, rfl⟩ := List.mem_map.mp member
        rfl
      rw [receive_concat setup.format running, ← slots, List.filter_append,
        List.filter_eq_self.mpr all, List.map_append, List.map_append, own, List.map_map]
      rfl
  | emergency => simpa using own
  | exits => simpa using own
  | silent => simpa using own

theorem Explained.emergency_step :
    (spills ++ spilt).filterMap Prod.fst = next.history.emergency := by
  have emergency := explained.emergency_eq
  cases shows with
  | handles here after => simp [after, emergency, List.filterMap_map]
  | emergency here after => simp [after, emergency]
  | exits here after => simp [after, emergency]
  | silent _ _ _ same => rw [List.append_nil, same, emergency]

theorem Explained.content_step (traced : Traced setup calls s) (later : List (CallId n × Op))
    {key : CallId n} {record : LogEntry} (member : .log key record ∈ msgs ++ shown) :
    Stamped setup (calls ++ later) key record := by
  apply Stamped.append
  rcases List.mem_append.mp member with old | new
  · exact explained.content key record old
  · cases shows with
    | handles here =>
        apply traced.onWay key record
        rw [pipeline_handling here]
        exact List.mem_cons.mpr (.inl (List.mem_singleton.mp new))
    | emergency | exits | silent => exact absurd new List.not_mem_nil

theorem Explained.emergencies_step (traced : Traced setup calls s)
    (later : List (CallId n × Op)) {key : CallId n} {bytes : Bytes}
    (member : (some key, bytes) ∈ spills ++ spilt) :
    ∃ record, Stamped setup (calls ++ later) key record ∧
      bytes = setup.emergencyBytes record := by
  rcases List.mem_append.mp member with old | new
  · obtain ⟨record, stamped, same⟩ := explained.emergencies key bytes old
    exact ⟨record, stamped.append later, same⟩
  · cases shows with
    | handles here after => simp at new
    | @emergency c record here after =>
        obtain ⟨rfl, rfl⟩ : key = s.id c ∧ bytes = setup.emergencyBytes record := by
          simpa using new
        exact ⟨record, (traced.carried c record (by rw [here]; rfl)).append later, rfl⟩
    | exits | silent => exact absurd new List.not_mem_nil

theorem Explained.step (traced : Traced setup calls s) (later : List (CallId n × Op)) :
    Explained setup (calls ++ later) (msgs ++ shown) (spills ++ spilt) next where
  handled_eq := explained.handled_step shows
  content _ _ := explained.content_step shows traced later
  running := explained.running_step shows
  slots_eq := explained.slots_step shows
  stderr_eq := explained.stderr_step shows
  own_eq := explained.own_step shows
  emergency_eq := explained.emergency_step shows
  emergencies _ _ := explained.emergencies_step shows traced later

end

/-! ## Runs -/

/-- The logger as a sequential one: the calls that have begun, the messages in the
order in which they were handled, and the writes to standard error. -/
structure Linearized (setup : Setup) (calls : List (CallId n × Op))
    (msgs : List (Message (CallId n))) (spills : List (Option (CallId n) × Bytes))
    (s : State n) : Prop extends Explained setup calls msgs spills s where
  calls_nodup : (calls.map Prod.fst).Nodup

/-- What began after a state has a later name than what had returned in it. -/
theorem begun_later {setup : Setup} {s target : State n} {actions : List (Action n)}
    (ran : run (step setup) s actions = some target) :
    (∀ c, (s.callers c).calls ≤ (target.callers c).calls) ∧
      ∀ call ∈ observed (step setup) begun s actions,
        (s.callers call.1.caller).calls ≤ call.1.seq := by
  induction actions generalizing s with
  | nil =>
      cases ran
      exact ⟨fun _ => Nat.le_refl _, fun _ member => absurd member List.not_mem_nil⟩
  | cons action actions inductionHypothesis =>
      obtain ⟨next, stepped, ran⟩ := (run_cons_eq_some _).mp ran
      obtain ⟨grows, later⟩ := inductionHypothesis ran
      have grown : ∀ c, (s.callers c).calls ≤ (next.callers c).calls := by
        intro c
        cases fires_of_step stepped <;> grind
      refine ⟨fun c => Nat.le_trans (grown c) (grows c), ?_⟩
      intro call member
      rw [observed_cons stepped] at member
      rcases List.mem_append.mp member with now | afterwards
      · cases action with
        | call c op =>
            obtain rfl := List.mem_singleton.mp now
            exact Nat.le_refl _
        | _ => exact absurd now List.not_mem_nil
      · exact Nat.le_trans (grown _) (later call afterwards)

/-- Records are enqueued and handled one after another. -/
theorem history_grows {setup : Setup} {s target : State n} {actions : List (Action n)}
    (ran : run (step setup) s actions = some target) :
    s.history.enqueued <+: target.history.enqueued ∧
      s.history.handled <+: target.history.handled := by
  refine @run_invariant _ _ _ (fun t : State n => s.history.enqueued <+: t.history.enqueued ∧
    s.history.handled <+: t.history.handled) ?_ _ _ _ ⟨List.prefix_rfl, List.prefix_rfl⟩ ran
  rintro middle action next ⟨enqueued, handled⟩ stepped
  cases fires_of_step stepped with
  | logSent => exact ⟨enqueued.trans (List.prefix_append _ _), handled⟩
  | handle => exact ⟨enqueued, handled.trans (List.prefix_append _ _)⟩
  | _ => exact ⟨enqueued, handled⟩

theorem traced_of_run {setup : Setup} {owner : Fin n} {actions : List (Action n)} {s : State n}
    (ran : run (step setup) (State.init setup owner) actions = some s) :
    Traced setup (observed (step setup) begun (State.init setup owner) actions) s ∧
      Explained setup (observed (step setup) begun (State.init setup owner) actions)
        (observed (step setup) served (State.init setup owner) actions)
        (observed (step setup) (spilled setup) (State.init setup owner) actions) s := by
  apply run_history _ _ ran
  · exact ⟨traced_init setup owner, explained_init setup owner⟩
  · rintro before middle action next ranBefore ⟨traced, explained⟩ stepped
    have fired := fires_of_step stepped
    rw [observed_concat ranBefore stepped, observed_concat ranBefore stepped,
      observed_concat ranBefore stepped]
    exact ⟨traced.step fired, explained.step (shows_of_fires fired) traced _⟩

/-- Every run of the logger is explained by a sequential one.  The sinks and the
writer's share of standard error are those of the writer's loop on the handled
messages; the records in these are those of the calls, stamped; and the order is
that of the sends, which keeps real time: what was enqueued at any moment comes
before everything that is enqueued later, in particular before the records of the
calls that begin later. -/
theorem linearized {setup : Setup} {owner : Fin n} {before after : List (Action n)}
    {middle s : State n}
    (ranBefore : run (step setup) (State.init setup owner) before = some middle)
    (ranAfter : run (step setup) middle after = some s) :
    Linearized setup (observed (step setup) begun (State.init setup owner) (before ++ after))
      (observed (step setup) served (State.init setup owner) (before ++ after))
      (observed (step setup) (spilled setup) (State.init setup owner) (before ++ after)) s ∧
    s.history.handled <+: s.history.enqueued ∧
    middle.history.enqueued <+: s.history.enqueued ∧
    ∀ call ∈ observed (step setup) begun middle after, call.1 ∉ middle.history.enqueued := by
  have ran : run (step setup) (State.init setup owner) (before ++ after) = some s :=
    (run_append_eq_some _).mpr ⟨middle, ranBefore, ranAfter⟩
  obtain ⟨traced, explained⟩ := traced_of_run ran
  have accounted := accounted_of_run ran
  have accountedBefore := accounted_of_run ranBefore
  refine ⟨⟨explained, traced.nodup⟩, ?_, (history_grows ranAfter).1, ?_⟩
  · rw [accounted.fifo, accounted.in_hand, List.append_assoc, List.append_assoc]
    exact List.prefix_append _ _
  · intro call member enqueued
    have early := accountedBefore.completed_past call.1
      (accountedBefore.enqueued_sublist.subset enqueued)
    exact absurd ((begun_later ranAfter).2 call member) (Nat.not_le.mpr early)

/-- One caller logs a record, and when its call has returned another one does. -/
theorem linearized_twoCalls :
    ∃ middle s : State 2, middle.history.enqueued = [⟨0, 0⟩] ∧ s.history.handled = [⟨0, 0⟩] ∧
      Linearized droppingSetup
        (observed (step droppingSetup) begun (State.init droppingSetup 0)
          ((.clone 0 1 :: logCall 0 1) ++ (.writer :: logCall 1 1 ++ [.writer])))
        (observed (step droppingSetup) served (State.init droppingSetup 0)
          ((.clone 0 1 :: logCall 0 1) ++ (.writer :: logCall 1 1 ++ [.writer])))
        (observed (step droppingSetup) (spilled droppingSetup) (State.init droppingSetup 0)
          ((.clone 0 1 :: logCall 0 1) ++ (.writer :: logCall 1 1 ++ [.writer]))) s ∧
      middle.history.enqueued <+: s.history.enqueued := by
  have seen : ((run (step droppingSetup) (State.init droppingSetup (0 : Fin 2))
      (.clone 0 1 :: logCall 0 1)).bind fun middle =>
        (run (step droppingSetup) middle (.writer :: logCall 1 1 ++ [.writer])).map fun s =>
          (middle.history.enqueued, s.history.handled)) = some ([⟨0, 0⟩], [⟨0, 0⟩]) := by
    decide +kernel
  obtain ⟨middle, ranBefore, seen⟩ := Option.bind_eq_some_iff.mp seen
  obtain ⟨s, ranAfter, seen⟩ := Option.map_eq_some_iff.mp seen
  obtain ⟨enqueued, handled⟩ := Prod.mk.inj seen
  obtain ⟨explained, _, order, _⟩ := linearized ranBefore ranAfter
  exact ⟨middle, s, enqueued, handled, explained, order⟩

end XosLog.Logger
