import XosLog.Logger.Barrier
import XosLog.Transition.Within

/-!
# Logging without waiting for the writer

Under `DropNewest` a `log` call does not wait for room in the queue, but it locks
the sender, and a control call that holds the sender does wait.  Whether the
callers can bring a `log` call to its end without the writer is decided by that.
-/

namespace XosLog.Logger

open Transition Writer

variable {n : Nat}

/-- The points of a `log` call. -/
def CallerPc.logs : CallerPc → Bool
  | .logLoad .. | .logLock _ | .logSend _ | .logFull _ | .logOrphan _ => true
  | _ => false

/-- The call has stored the closed flag. -/
def CallerPc.hasClosed : CallerPc → Bool
  | .ctrlLock .shutdown | .ctrlSend .shutdown | .ctrlWait .shutdown | .shutHandle | .shutJoin => true
  | _ => false

/-- A control call holds the sender and waits for room in the queue. -/
def SenderStuck (setup : Setup) (s : State n) : Prop :=
  s.writer ≠ .exited ∧ ¬s.Accepts setup ∧ ∃ c control, (s.callers c).pc = .ctrlSend control

/-- A caller is about to store the closed flag, or can come to begin a `shutdown`
without the sender and without the writer. -/
def CanClose (setup : Setup) (s : State n) (c : Fin n) : Prop :=
  match (s.callers c).pc with
  | .shutStore => True
  | .idle => 0 < (s.callers c).handles
  | .logLoad entry _ _ => setup.isEnabledFor entry.level entry.target = false
  | .ctrlWait .flush => s.acks (s.id c) ≠ .live
  | _ => False

/-- The `log` call is at its checks and returns there, now or once another call has
closed the logger. -/
def TurnsBack (setup : Setup) (s : State n) (c : Fin n) : Prop :=
  match (s.callers c).pc with
  | .logLoad entry _ _ => s.closed = true ∨ setup.isEnabledFor entry.level entry.target = false ∨
      ∃ other, CanClose setup s other
  | _ => False

/-- The caller can end its call without the writer. -/
def CanFinish (setup : Setup) (s : State n) (c : Fin n) : Prop :=
  CanReach (step setup) (· ≠ .writer) (Returned c s) s

attribute [local grind =] Function.update_apply CallerPc.locksSender CallerPc.hasClosed

/-! ## The closed flag -/

/-- A `shutdown` that is past its first step has closed the logger. -/
def ClosedFirst (s : State n) : Prop :=
  ∀ c, (s.callers c).pc.hasClosed = true → s.closed = true

theorem closedFirst_init (setup : Setup) (owner : Fin n) :
    ClosedFirst (State.init setup owner) :=
  fun _ => nofun

theorem ClosedFirst.step {setup : Setup} {s next : State n} {action : Action n}
    (closedFirst : ClosedFirst s) (fired : Fires setup s action next) : ClosedFirst next := by
  intro c
  have closed := closedFirst c
  cases fired <;> grind

theorem closedFirst_of_run {setup : Setup} {owner : Fin n} {actions : List (Action n)}
    {s : State n} (ran : run (step setup) (State.init setup owner) actions = some s) :
    ClosedFirst s := by
  have preserved : ∀ {s : State n} {action next}, ClosedFirst s →
      Logger.step setup s action = some next → ClosedFirst next :=
    fun closedFirst stepped => closedFirst.step (fires_of_step stepped)
  exact run_invariant preserved (closedFirst_init setup owner) ran

/-! ## The steps behind the lock -/

section

variable {setup : Setup} {s : State n} {c : Fin n} {record : LogEntry}

theorem callerStep_logFull (here : (s.callers c).pc = .logFull record) :
    callerStep setup s c = some (s.refuseLog c) := by
  simp [callerStep, here]

theorem callerStep_logOrphan (here : (s.callers c).pc = .logOrphan record) :
    callerStep setup s c = some (s.emergencyWrite setup c record) := by
  simp [callerStep, here]

/-- Under `DropNewest` a send finds the receiver gone, room in the queue, or a full
queue. -/
theorem callerStep_logSend (drops : setup.backpressure = .dropNewest)
    (here : (s.callers c).pc = .logSend record) :
    callerStep setup s c = some (s.goto c (.logOrphan record)) ∨
      callerStep setup s c = some (s.sendLog c record) ∨
      callerStep setup s c = some (s.goto c (.logFull record)) := by
  by_cases gone : s.writer = .exited
  · exact Or.inl (by simp [callerStep, here, gone])
  · by_cases accepts : s.Accepts setup
    · exact Or.inr (Or.inl (by simp [callerStep, here, gone, accepts]))
    · exact Or.inr (Or.inr (by simp [callerStep, here, gone, accepts, drops]))

end

/-! ## Ways to the end of a call -/

/-- The call that `c` is making in `start` can be brought to its end without the
writer. -/
abbrev Ends (setup : Setup) (c : Fin n) (start s : State n) : Prop :=
  CanReach (step setup) (· ≠ .writer) (Returned c start) s

section

variable {setup : Setup} {s next start : State n} {c : Fin n}

/-- After a step of a caller. -/
theorem ends_caller {other : Fin n} (stepped : callerStep setup s other = some next)
    (ends : Ends setup c start next) : Ends setup c start s := by
  have notWriter : Action.caller other ≠ .writer := nofun
  exact CanReach.after notWriter stepped ends

/-- By the step with which the call returns. -/
theorem ends_of_returns (same : (s.callers c).calls = (start.callers c).calls)
    (stepped : callerStep setup s c = some next)
    (returns : (next.callers c).calls = (s.callers c).calls + 1) : Ends setup c start s := by
  apply ends_caller stepped
  apply CanReach.here
  rw [Returned, returns, same]
  exact Nat.lt_succ_self _

variable (record : LogEntry) (same : (s.callers c).calls = (start.callers c).calls)

include same

theorem ends_logFull (here : (s.callers c).pc = .logFull record) : Ends setup c start s :=
  ends_of_returns same (callerStep_logFull here) (by simp)

theorem ends_logOrphan (here : (s.callers c).pc = .logOrphan record) : Ends setup c start s :=
  ends_of_returns same (callerStep_logOrphan here) (by simp)

variable (drops : setup.backpressure = .dropNewest)

include drops

/-- Whatever the queue does, a `log` call that has locked the sender ends. -/
theorem ends_logSend (here : (s.callers c).pc = .logSend record) : Ends setup c start s := by
  rcases callerStep_logSend drops here with orphan | sent | full
  · apply ends_caller orphan
    apply ends_logOrphan record
    · simpa using same
    · simp
  · exact ends_of_returns same sent (by simp)
  · apply ends_caller full
    apply ends_logFull record
    · simpa using same
    · simp

/-- With the sender free, a `log` call that is about to lock it ends. -/
theorem ends_logLock_free (here : (s.callers c).pc = .logLock record) (free : s.txLock = none) :
    Ends setup c start s := by
  have stepped : callerStep setup s c =
      some { s.goto c (.logSend record) with txLock := some c } := by
    simp [callerStep, here, free]
  apply ends_caller stepped
  apply ends_logSend record
  · simpa using same
  · exact drops
  · simp

end

/-! ## The holder of the sender -/

/-- The sender is free, and the caller is where it was in `start`. -/
def Released (c : Fin n) (start released : State n) : Prop :=
  released.txLock = none ∧ released.callers c = start.callers c

/-- The sender can come free without the writer and the caller. -/
abbrev Releases (setup : Setup) (c : Fin n) (start s : State n) : Prop :=
  CanReach (step setup) (· ≠ .writer) (Released c start) s

section

variable {setup : Setup} {s next start : State n} {c holder : Fin n}

/-- After a step of a caller. -/
theorem releases_caller (stepped : callerStep setup s holder = some next)
    (releases : Releases setup c start next) : Releases setup c start s := by
  have notWriter : Action.caller holder ≠ .writer := nofun
  exact CanReach.after notWriter stepped releases

variable (distinct : c ≠ holder) (kept : s.callers c = start.callers c)

include distinct kept

/-- By the step with which the holder unlocks the sender. -/
theorem releases_of_unlocks {caller : Caller} (stepped : callerStep setup s holder = some next)
    (free : next.txLock = none) (moved : next.callers = Function.update s.callers holder caller) :
    Releases setup c start s := by
  apply releases_caller stepped
  apply CanReach.here
  refine ⟨free, ?_⟩
  rw [moved, Function.update_of_ne distinct, kept]

theorem releases_logFull (record : LogEntry) (here : (s.callers holder).pc = .logFull record) :
    Releases setup c start s :=
  releases_of_unlocks distinct kept (callerStep_logFull here) rfl rfl

theorem releases_logOrphan (record : LogEntry)
    (here : (s.callers holder).pc = .logOrphan record) : Releases setup c start s :=
  releases_of_unlocks distinct kept (callerStep_logOrphan here) rfl rfl

theorem releases_logSend (drops : setup.backpressure = .dropNewest) {record : LogEntry}
    (here : (s.callers holder).pc = .logSend record) : Releases setup c start s := by
  rcases callerStep_logSend drops here with orphan | sent | full
  · apply releases_caller orphan
    apply releases_logOrphan distinct _ record
    · simp
    · exact (Function.update_of_ne distinct _ _).trans kept
  · exact releases_of_unlocks distinct kept sent rfl rfl
  · apply releases_caller full
    apply releases_logFull distinct _ record
    · simp
    · exact (Function.update_of_ne distinct _ _).trans kept

/-- A control call unlocks the sender once its message is accepted, or the receiver
gone. -/
theorem releases_ctrlSend (free : ¬SenderStuck setup s) {control : Control}
    (here : (s.callers holder).pc = .ctrlSend control) : Releases setup c start s := by
  by_cases gone : s.writer = .exited
  · have stepped : callerStep setup s holder =
        some { s.controlReturns holder control with txLock := none } := by
      simp [callerStep, here, gone]
    exact releases_of_unlocks distinct kept stepped rfl rfl
  · by_cases accepts : s.Accepts setup
    · have stepped : callerStep setup s holder = some (s.sendControl holder control) := by
        simp [callerStep, here, gone, accepts]
      exact releases_of_unlocks distinct kept stepped rfl rfl
    · exact absurd ⟨gone, accepts, holder, control, here⟩ free

end

section

variable {setup : Setup} {s start : State n} {c : Fin n}

/-- Unless a control call is stuck with it, the sender comes free. -/
theorem releases_sender (drops : setup.backpressure = .dropNewest) (coordinated : Coordinated s)
    (free : ¬SenderStuck setup s) (unlocked : (s.callers c).pc.locksSender = false) :
    Releases setup c s s := by
  cases locked : s.txLock with
  | none => exact CanReach.here ⟨locked, rfl⟩
  | some holder =>
      have holds := (coordinated.sender holder).mp locked
      have distinct : c ≠ holder := by
        rintro rfl
        rw [unlocked] at holds
        contradiction
      cases here : (s.callers holder).pc with
      | logSend record => exact releases_logSend distinct rfl drops here
      | logFull record => exact releases_logFull distinct rfl record here
      | logOrphan record => exact releases_logOrphan distinct rfl record here
      | ctrlSend control => exact releases_ctrlSend distinct rfl free here
      | _ =>
          rw [here] at holds
          contradiction

/-- Unless a control call is stuck with the sender, a `log` call gets it and ends. -/
theorem ends_logLock (record : LogEntry) (drops : setup.backpressure = .dropNewest)
    (coordinated : Coordinated s) (free : ¬SenderStuck setup s)
    (same : (s.callers c).calls = (start.callers c).calls)
    (here : (s.callers c).pc = .logLock record) : Ends setup c start s := by
  have unlocked : (s.callers c).pc.locksSender = false := by
    rw [here]
    rfl
  apply CanReach.trans (releases_sender drops coordinated free unlocked)
  rintro released ⟨unlocked, kept⟩
  apply ends_logLock_free record
  · rw [kept]
    exact same
  · exact drops
  · rw [kept]
    exact here
  · exact unlocked

end

/-! ## The checks -/

section

variable {setup : Setup} {s start : State n} {c other : Fin n} {entry : LogEntry} {clock : Int}
  {stack : List Context.Frame} (same : (s.callers c).calls = (start.callers c).calls)
  (here : (s.callers c).pc = .logLoad entry clock stack)

include same here

theorem ends_logLoad_closed (closed : s.closed = true) : Ends setup c start s := by
  have stepped : callerStep setup s c = some (s.returns c) := by
    simp [callerStep, here, closed]
  exact ends_of_returns same stepped (by simp)

theorem ends_logLoad_filtered
    (disabled : setup.isEnabledFor entry.level entry.target = false) : Ends setup c start s := by
  have stepped : callerStep setup s c = some (s.returns c) := by
    simp [callerStep, here, disabled]
  exact ends_of_returns same stepped (by simp)

/-- A `log` call at its checks ends unless a control call is stuck with the sender. -/
theorem ends_logLoad (drops : setup.backpressure = .dropNewest) (coordinated : Coordinated s)
    (free : ¬SenderStuck setup s) : Ends setup c start s := by
  by_cases closed : s.closed = true
  · exact ends_logLoad_closed same here closed
  · cases enabled : setup.isEnabledFor entry.level entry.target with
    | false => exact ends_logLoad_filtered same here enabled
    | true =>
        have stepped : callerStep setup s c =
            some (s.admitLog c (setup.stamp entry clock stack)) := by
          simp [callerStep, here, closed, enabled]
        have stillFree : ¬SenderStuck setup (s.admitLog c (setup.stamp entry clock stack)) := by
          rintro ⟨alive, full, holder, control, sends⟩
          apply free
          refine ⟨alive, full, holder, control, ?_⟩
          grind
        have admitted := coordinated.step (fires_of_callerStep stepped)
        apply ends_caller stepped
        apply ends_logLock (setup.stamp entry clock stack) drops admitted stillFree
        · simpa using same
        · simp

variable (distinct : c ≠ other)

include distinct

/-- It returns once another call has stored the closed flag. -/
theorem ends_shutStore (stores : (s.callers other).pc = .shutStore) : Ends setup c start s := by
  have stepped : callerStep setup s other =
      some { s.goto other (.ctrlLock .shutdown) with closed := true } := by
    simp [callerStep, stores]
  have kept := Function.update_of_ne distinct
    { s.callers other with pc := .ctrlLock .shutdown } s.callers
  have stillSame := (congrArg Caller.calls kept).trans same
  have stillHere := (congrArg Caller.pc kept).trans here
  exact ends_caller stepped (ends_logLoad_closed stillSame stillHere rfl)

/-- Another caller can begin a `shutdown`. -/
theorem ends_idle (idle : (s.callers other).pc = .idle) (owns : 0 < (s.callers other).handles) :
    Ends setup c start s := by
  have stepped : step setup s (.call other (.control .shutdown)) =
      some (s.goto other .shutStore) := by
    simp [step, idle, owns, Op.start]
  have kept := Function.update_of_ne distinct { s.callers other with pc := .shutStore } s.callers
  have stillSame := (congrArg Caller.calls kept).trans same
  have stillHere := (congrArg Caller.pc kept).trans here
  have notWriter : Action.call other (.control .shutdown) ≠ .writer := by simp
  exact CanReach.after notWriter stepped (ends_shutStore stillSame stillHere distinct (by simp))

/-- A call of another caller returns, which can then begin a `shutdown`. -/
theorem ends_other_returns {caller : Caller} {next : State n}
    (stepped : callerStep setup s other = some next)
    (moved : next.callers = Function.update s.callers other caller)
    (idle : caller.pc = .idle) (owns : 0 < caller.handles) : Ends setup c start s := by
  have kept : next.callers c = s.callers c := by
    rw [moved, Function.update_of_ne distinct]
  have reached : next.callers other = caller := by
    rw [moved, Function.update_self]
  have stillSame := (congrArg Caller.calls kept).trans same
  have stillHere := (congrArg Caller.pc kept).trans here
  apply ends_caller stepped
  exact ends_idle stillSame stillHere distinct (by rw [reached, idle]) (by rwa [reached])

end

section

variable {setup : Setup} {s : State n} {c other : Fin n} {entry : LogEntry} {clock : Int}
  {stack : List Context.Frame}

/-- A `log` call at its checks returns when another caller can close the logger. -/
theorem ends_canClose (coordinated : Coordinated s)
    (here : (s.callers c).pc = .logLoad entry clock stack) (closes : CanClose setup s other) :
    Ends setup c s s := by
  by_cases self : c = other
  · subst self
    rw [CanClose, here] at closes
    exact ends_logLoad_filtered rfl here closes
  · have owned := coordinated.owns other
    unfold CanClose at closes
    cases there : (s.callers other).pc with
    | shutStore => exact ends_shutStore rfl here self there
    | idle =>
        rw [there] at closes
        exact ends_idle rfl here self there closes
    | logLoad otherEntry otherClock otherStack =>
        rw [there] at closes owned
        have stepped : callerStep setup s other = some (s.returns other) := by
          simp [callerStep, there, closes]
        exact ends_other_returns rfl here self stepped rfl rfl (owned nofun)
    | ctrlWait control =>
        cases control with
        | flush =>
            rw [there] at closes owned
            have stepped : callerStep setup s other = some (s.controlReturns other .flush) := by
              simp [callerStep, there, closes]
            exact ends_other_returns rfl here self stepped rfl rfl (owned nofun)
        | shutdown =>
            rw [there] at closes
            contradiction
    | _ =>
        rw [there] at closes
        contradiction

end

/-! ## A stuck sender -/

section

variable {setup : Setup} {s next : State n} {action : Action n}

/-- Only the writer can make room for a control call that is stuck. -/
theorem SenderStuck.step (stuck : SenderStuck setup s) (fired : Fires setup s action next)
    (notWriter : action ≠ .writer) : SenderStuck setup next := by
  obtain ⟨alive, full, holder, control, sends⟩ := stuck
  cases fired with
  | logSent here _ accepts => exact absurd accepts full
  | ctrlSent here _ accepts => exact absurd accepts full
  | ctrlGone here gone => exact absurd gone alive
  | take => contradiction
  | hangUp => contradiction
  | park => contradiction
  | handle => contradiction
  | exit => contradiction
  | _ =>
      refine ⟨alive, full, holder, control, ?_⟩
      grind

/-- The stuck control call has locked the sender. -/
theorem SenderStuck.exists_holder (stuck : SenderStuck setup s) (coordinated : Coordinated s) :
    ∃ holder control, s.txLock = some holder ∧ (s.callers holder).pc = .ctrlSend control := by
  obtain ⟨_, _, holder, control, sends⟩ := stuck
  refine ⟨holder, control, (coordinated.sender holder).mpr ?_, sends⟩
  rw [sends]
  rfl

/-- While a control call is stuck with the sender, a `log` call does not get it. -/
theorem logLock_stays (coordinated : Coordinated s) (stuck : SenderStuck setup s) {c : Fin n}
    {record : LogEntry} (here : (s.callers c).pc = .logLock record)
    (fired : Fires setup s action next) (notWriter : action ≠ .writer) :
    (next.callers c).pc = .logLock record ∧ (next.callers c).calls = (s.callers c).calls := by
  obtain ⟨holder, control, held, sends⟩ := stuck.exists_holder coordinated
  cases fired <;> grind

/-- While a control call is stuck with the sender and nobody can close the logger,
the callers can only pass the checks of `log`. -/
theorem only_admits (coordinated : Coordinated s) (closedFirst : ClosedFirst s)
    (stuck : SenderStuck setup s) (isOpen : s.closed = false)
    (closers : ∀ other, ¬CanClose setup s other) (fired : Fires setup s action next)
    (notWriter : action ≠ .writer) :
    ∃ c entry clock stack, (s.callers c).pc = .logLoad entry clock stack ∧
      next = s.admitLog c (setup.stamp entry clock stack) := by
  obtain ⟨holder, control, held, sends⟩ := stuck.exists_holder coordinated
  have closing : ∀ other, CanClose setup s other → False := closers
  have notClosed : s.closed ≠ true := Bool.eq_false_iff.mp isOpen
  -- Every other rule needs the sender, room in the queue or a caller that can close.
  have unlocked : ∀ other, (s.callers other).pc.locksSender = true → other = holder := by
    intro other locks
    have locked := (coordinated.sender other).mpr locks
    exact Option.some.inj (locked.symm.trans held)
  cases fired with
  | @logAdmit c entry clock stack here => exact ⟨c, entry, clock, stack, here, rfl⟩
  | @call c op idle owns => exact (closing c (by rw [CanClose, idle]; exact owns)).elim
  | @clone c target idle owns => exact (closing c (by rw [CanClose, idle]; exact owns)).elim
  | @drop c idle owns => exact (closing c (by rw [CanClose, idle]; exact owns)).elim
  | logClosed _ closed => exact absurd closed notClosed
  | @logFilter c _ _ _ here _ disabled =>
      exact (closing c (by rw [CanClose, here]; exact disabled)).elim
  | @shutStore c here => exact (closing c (by rw [CanClose, here]; trivial)).elim
  | @flushAcked c here resolved =>
      exact (closing c (by rw [CanClose, here]; exact resolved)).elim
  | logGone _ gone => exact absurd gone stuck.1
  | ctrlGone _ gone => exact absurd gone stuck.1
  | logSent _ _ accepts => exact absurd accepts stuck.2.1
  | ctrlSent _ _ accepts => exact absurd accepts stuck.2.1
  | take => contradiction
  | hangUp => contradiction
  | park => contradiction
  | handle => contradiction
  | exit => contradiction
  | _ => grind [ClosedFirst]

/-- Passing the checks lets nobody close the logger. -/
theorem canClose_of_admitLog {c other : Fin n} {record : LogEntry}
    (closes : CanClose setup (s.admitLog c record) other) : CanClose setup s other := by
  by_cases self : other = c
  · subst self
    simp [CanClose] at closes
  · simpa [CanClose, State.id, Function.update_of_ne self] using closes

end

/-- A `log` call that waits behind a control call that is stuck with the sender, or
is going to. -/
structure Jammed (setup : Setup) (c : Fin n) (calls : Nat) (s : State n) : Prop where
  coordinated : Coordinated s
  closedFirst : ClosedFirst s
  stuck : SenderStuck setup s
  unfinished : (s.callers c).calls = calls
  going : (∃ record, (s.callers c).pc = .logLock record) ∨
    (∃ entry clock stack, (s.callers c).pc = .logLoad entry clock stack ∧
      setup.isEnabledFor entry.level entry.target = true) ∧ s.closed = false ∧
        ∀ other, ¬CanClose setup s other

theorem Jammed.step {setup : Setup} {s next : State n} {action : Action n} {c : Fin n}
    {calls : Nat} (jammed : Jammed setup c calls s) (notWriter : action ≠ .writer)
    (stepped : step setup s action = some next) : Jammed setup c calls next := by
  obtain ⟨coordinated, closedFirst, stuck, unfinished, going⟩ := jammed
  have fired := fires_of_step stepped
  have still : (next.callers c).calls = calls ∧
      ((∃ record, (next.callers c).pc = .logLock record) ∨
        (∃ entry clock stack, (next.callers c).pc = .logLoad entry clock stack ∧
          setup.isEnabledFor entry.level entry.target = true) ∧ next.closed = false ∧
            ∀ other, ¬CanClose setup next other) := by
    rcases going with ⟨record, here⟩ | ⟨⟨entry, clock, stack, here, enabled⟩, isOpen, closers⟩
    · obtain ⟨there, same⟩ := logLock_stays coordinated stuck here fired notWriter
      exact ⟨same.trans unfinished, Or.inl ⟨record, there⟩⟩
    · obtain ⟨other, otherEntry, otherClock, otherStack, _, rfl⟩ :=
        only_admits coordinated closedFirst stuck isOpen closers fired notWriter
      have stillNone : ∀ later, ¬CanClose setup
          (s.admitLog other (setup.stamp otherEntry otherClock otherStack)) later :=
        fun later closes => closers later (canClose_of_admitLog closes)
      by_cases self : c = other
      · subst self
        refine ⟨by simpa using unfinished, Or.inl ?_⟩
        exact ⟨setup.stamp otherEntry otherClock otherStack, by simp⟩
      · have kept := Function.update_of_ne self { s.callers other with
          pc := .logLock (setup.stamp otherEntry otherClock otherStack) } s.callers
        refine ⟨(congrArg Caller.calls kept).trans unfinished, Or.inr ⟨?_, isOpen, stillNone⟩⟩
        exact ⟨entry, clock, stack, (congrArg Caller.pc kept).trans here, enabled⟩
  exact ⟨coordinated.step fired, closedFirst.step fired, stuck.step fired notWriter,
    still.1, still.2⟩

/-- Without the writer a jammed call does not end. -/
theorem Jammed.not_canFinish {setup : Setup} {s : State n} {c : Fin n}
    (jammed : Jammed setup c (s.callers c).calls s) : ¬CanFinish setup s c := by
  apply CanReach.not_of_invariant (fun jammed notWriter stepped =>
    Jammed.step jammed notWriter stepped) _ jammed
  intro target jammed returned
  exact Nat.ne_of_gt returned jammed.unfinished

/-- A stuck sender jams every `log` call that does not turn back. -/
theorem jammed_of_stuck {setup : Setup} {s : State n} {c : Fin n} (coordinated : Coordinated s)
    (closedFirst : ClosedFirst s) (logging : (s.callers c).pc.logs = true)
    (stuck : SenderStuck setup s) (proceeds : ¬TurnsBack setup s c) :
    Jammed setup c (s.callers c).calls s := by
  obtain ⟨holder, control, held, sends⟩ := stuck.exists_holder coordinated
  have waits : (s.callers c).pc.locksSender = false := by
    by_contra locks
    have locked := (coordinated.sender c).mpr (Bool.eq_true_of_not_eq_false locks)
    obtain rfl : c = holder := Option.some.inj (locked.symm.trans held)
    rw [sends] at logging
    contradiction
  refine ⟨coordinated, closedFirst, stuck, rfl, ?_⟩
  cases here : (s.callers c).pc with
  | logLoad entry clock stack =>
      simp only [TurnsBack, here, not_or, not_exists] at proceeds
      obtain ⟨isOpen, enabled, closers⟩ := proceeds
      exact Or.inr ⟨⟨entry, clock, stack, rfl, Bool.eq_true_of_not_eq_false enabled⟩,
        Bool.eq_false_of_not_eq_true isOpen, closers⟩
  | logLock record => exact Or.inl ⟨record, rfl⟩
  | logSend record =>
      rw [here] at waits
      contradiction
  | logFull record =>
      rw [here] at waits
      contradiction
  | logOrphan record =>
      rw [here] at waits
      contradiction
  | _ =>
      rw [here] at logging
      contradiction

/-- A `log` call that turns back at its checks ends. -/
theorem canFinish_of_turnsBack {setup : Setup} {s : State n} {c : Fin n}
    (coordinated : Coordinated s) (turns : TurnsBack setup s c) : CanFinish setup s c := by
  cases here : (s.callers c).pc with
  | logLoad entry clock stack =>
      simp only [TurnsBack, here] at turns
      rcases turns with closed | disabled | ⟨other, closes⟩
      · exact ends_logLoad_closed rfl here closed
      · exact ends_logLoad_filtered rfl here disabled
      · exact ends_canClose coordinated here closes
  | _ => simp [TurnsBack, here] at turns

/-- Every `log` call ends unless a control call is stuck with the sender. -/
theorem canFinish_of_not_stuck {setup : Setup} {s : State n} {c : Fin n}
    (drops : setup.backpressure = .dropNewest) (coordinated : Coordinated s)
    (logging : (s.callers c).pc.logs = true) (free : ¬SenderStuck setup s) :
    CanFinish setup s c := by
  cases here : (s.callers c).pc with
  | logLoad entry clock stack => exact ends_logLoad rfl here drops coordinated free
  | logLock record => exact ends_logLock record drops coordinated free rfl here
  | logSend record => exact ends_logSend record rfl drops here
  | logFull record => exact ends_logFull record rfl here
  | logOrphan record => exact ends_logOrphan record rfl here
  | _ =>
      rw [here] at logging
      contradiction

/-- Under `DropNewest` the callers can bring a `log` call to its end without the
writer unless a control call is stuck with the sender, and then only when the `log`
call turns back at its checks. -/
theorem log_canFinish_iff {setup : Setup} (drops : setup.backpressure = .dropNewest)
    {owner : Fin n} {actions : List (Action n)} {s : State n}
    (ran : run (step setup) (State.init setup owner) actions = some s) {c : Fin n}
    (logging : (s.callers c).pc.logs = true) :
    CanFinish setup s c ↔ (SenderStuck setup s → TurnsBack setup s c) := by
  have coordinated := coordinated_of_run ran
  have closedFirst := closedFirst_of_run ran
  constructor
  · intro finishes stuck
    by_contra proceeds
    exact (jammed_of_stuck coordinated closedFirst logging stuck proceeds).not_canFinish finishes
  · intro turns
    by_cases stuck : SenderStuck setup s
    · exact canFinish_of_turnsBack coordinated (turns stuck)
    · exact canFinish_of_not_stuck drops coordinated logging stuck

/-- A caller fills the queue and flushes, and another one is about to lock the sender
for a record. -/
def flushBehindFull (c other : Fin n) : List (Action n) :=
  .clone c other :: logCall c 1 ++ [.call c (.control .flush), .caller c,
    .call other (.log infoEntry 0 []), .caller other]

/-- Where that leaves the callers, the writer and the channel. -/
theorem flushBehindFull_observed :
    ∃ s, run (step droppingSetup) (State.init droppingSetup 0)
        (flushBehindFull (0 : Fin 2) 1) = some s ∧
      s.writer ≠ .exited ∧ ¬s.Accepts droppingSetup ∧ (s.callers 0).pc = .ctrlSend .flush ∧
      (s.callers 1).pc = .logLock (droppingSetup.stamp infoEntry 0 []) := by
  have observed : (run (step droppingSetup) (State.init droppingSetup 0)
      (flushBehindFull (0 : Fin 2) 1)).map
      (fun s => (decide (s.writer = .exited), decide (s.Accepts droppingSetup),
        (s.callers 0).pc, (s.callers 1).pc)) =
      some (false, false, .ctrlSend .flush, .logLock (droppingSetup.stamp infoEntry 0 [])) := by
    decide +kernel
  obtain ⟨s, ran, seen⟩ := Option.map_eq_some_iff.mp observed
  simp only [Prod.mk.injEq, decide_eq_false_iff_not] at seen
  exact ⟨s, ran, seen⟩

theorem log_canFinish_iff_flushing :
    ∃ s, run (step droppingSetup) (State.init droppingSetup 0)
        (flushBehindFull (0 : Fin 2) 1) = some s ∧
      (CanFinish droppingSetup s 1 ↔
        (SenderStuck droppingSetup s → TurnsBack droppingSetup s 1)) := by
  obtain ⟨s, ran, _, _, _, waits⟩ := flushBehindFull_observed
  have logging : (s.callers 1).pc.logs = true := by
    rw [waits]
    rfl
  exact ⟨s, ran, log_canFinish_iff rfl ran logging⟩

/-- The flush holds the sender while it waits for room, and the other caller waits
for the sender. -/
theorem not_log_canFinish :
    ¬∀ (n : Nat) (setup : Setup) (owner : Fin n) (actions : List (Action n)) (s : State n)
      (c : Fin n), setup.backpressure = .dropNewest →
      run (step setup) (State.init setup owner) actions = some s →
      (s.callers c).pc.logs = true → CanFinish setup s c := by
  intro always
  obtain ⟨s, ran, alive, full, sends, waits⟩ := flushBehindFull_observed
  have logging : (s.callers 1).pc.logs = true := by
    rw [waits]
    rfl
  have stuck : SenderStuck droppingSetup s := ⟨alive, full, 0, .flush, sends⟩
  have jammed : Jammed droppingSetup 1 (s.callers 1).calls s :=
    ⟨coordinated_of_run ran, closedFirst_of_run ran, stuck, rfl, Or.inl ⟨_, waits⟩⟩
  exact jammed.not_canFinish (always 2 droppingSetup 0 (flushBehindFull 0 1) s 1 rfl ran logging)

end XosLog.Logger
