import XosLog.Logger.State

/-!
# What a step can do

Every step of the system is an instance of one of the rules below.  A rule says
when it applies and what the next state is.
-/

namespace XosLog.Logger

open Writer (Message)

variable {n : Nat}

/-- The rules of the system. -/
inductive Fires (setup : Setup) (s : State n) : Action n → State n → Prop
  | call {c op} (idle : (s.callers c).pc = .idle) (owns : 0 < (s.callers c).handles) :
      Fires setup s (.call c op) (s.goto c op.start)
  | clone {c target} (idle : (s.callers c).pc = .idle) (owns : 0 < (s.callers c).handles) :
      Fires setup s (.clone c target) (s.setHandles target ((s.callers target).handles + 1))
  | drop {c} (idle : (s.callers c).pc = .idle) (owns : 0 < (s.callers c).handles) :
      Fires setup s (.drop c) (s.setHandles c ((s.callers c).handles - 1))
  | logClosed {c entry clock stack} (here : (s.callers c).pc = .logLoad entry clock stack)
      (closed : s.closed = true) : Fires setup s (.caller c) (s.returns c)
  | logAdmit {c entry clock stack} (here : (s.callers c).pc = .logLoad entry clock stack)
      (isOpen : s.closed = false) (enabled : setup.isEnabledFor entry.level entry.target = true) :
      Fires setup s (.caller c) (s.admitLog c (setup.stamp entry clock stack))
  | logFilter {c entry clock stack} (here : (s.callers c).pc = .logLoad entry clock stack)
      (isOpen : s.closed = false) (disabled : setup.isEnabledFor entry.level entry.target = false) :
      Fires setup s (.caller c) (s.returns c)
  | logLock {c record} (here : (s.callers c).pc = .logLock record) (free : s.txLock = none) :
      Fires setup s (.caller c) { s.goto c (.logSend record) with txLock := some c }
  | logGone {c record} (here : (s.callers c).pc = .logSend record) (gone : s.writer = .exited) :
      Fires setup s (.caller c) (s.goto c (.logOrphan record))
  | logSent {c record} (here : (s.callers c).pc = .logSend record) (alive : s.writer ≠ .exited)
      (accepts : s.Accepts setup) : Fires setup s (.caller c) (s.sendLog c record)
  | logFull {c record} (here : (s.callers c).pc = .logSend record) (alive : s.writer ≠ .exited)
      (full : ¬ s.Accepts setup) (drops : setup.backpressure = .dropNewest) :
      Fires setup s (.caller c) (s.goto c (.logFull record))
  | logRefuse {c record} (here : (s.callers c).pc = .logFull record) :
      Fires setup s (.caller c) (s.refuseLog c)
  | logEmergency {c record} (here : (s.callers c).pc = .logOrphan record) :
      Fires setup s (.caller c) (s.emergencyWrite setup c record)
  | shutStore {c} (here : (s.callers c).pc = .shutStore) :
      Fires setup s (.caller c) { s.goto c (.ctrlLock .shutdown) with closed := true }
  | ctrlLock {c control} (here : (s.callers c).pc = .ctrlLock control) (free : s.txLock = none) :
      Fires setup s (.caller c) { s.goto c (.ctrlSend control) with txLock := some c }
  | ctrlGone {c control} (here : (s.callers c).pc = .ctrlSend control)
      (gone : s.writer = .exited) :
      Fires setup s (.caller c) { s.controlReturns c control with txLock := none }
  | ctrlSent {c control} (here : (s.callers c).pc = .ctrlSend control)
      (alive : s.writer ≠ .exited) (accepts : s.Accepts setup) :
      Fires setup s (.caller c) (s.sendControl c control)
  | flushAcked {c} (here : (s.callers c).pc = .ctrlWait .flush)
      (resolved : s.acks (s.id c) ≠ .live) :
      Fires setup s (.caller c) (s.controlReturns c .flush)
  | shutAcked {c} (here : (s.callers c).pc = .ctrlWait .shutdown)
      (resolved : s.acks (s.id c) ≠ .live) : Fires setup s (.caller c) (s.goto c .shutHandle)
  | shutTake {c} (here : (s.callers c).pc = .shutHandle) (free : s.handleLock = none)
      (untaken : s.joinHandle = true) :
      Fires setup s (.caller c)
        { s.goto c .shutJoin with handleLock := some c, joinHandle := false }
  | shutLate {c} (here : (s.callers c).pc = .shutHandle) (free : s.handleLock = none)
      (taken : s.joinHandle = false) : Fires setup s (.caller c) (s.controlReturns c .shutdown)
  | shutJoined {c} (here : (s.callers c).pc = .shutJoin) (gone : s.writer = .exited) :
      Fires setup s (.caller c) { s.controlReturns c .shutdown with handleLock := none }
  | take {waiting msg rest} (here : s.writer = .recv waiting) (queued : s.queue = msg :: rest) :
      Fires setup s .writer (s.take msg rest)
  | hangUp {waiting} (here : s.writer = .recv waiting) (drained : s.queue = [])
      (disconnected : s.Disconnected) : Fires setup s .writer (s.proceed .final)
  | park (here : s.writer = .recv false) (drained : s.queue = [])
      (connected : ¬ s.Disconnected) : Fires setup s .writer (s.proceed (.recv true))
  | handle {msg} (here : s.writer = .handling msg) : Fires setup s .writer (s.handle setup msg)
  | exit (here : s.writer = .final) : Fires setup s .writer s.exit

theorem fires_of_callerStep {setup : Setup} {s next : State n} {c : Fin n}
    (stepped : callerStep setup s c = some next) : Fires setup s (.caller c) next := by
  unfold callerStep at stepped
  cases here : (s.callers c).pc with
  | idle =>
      rw [here] at stepped
      contradiction
  | logLoad entry clock stack =>
      simp only [here] at stepped
      split_ifs at stepped with closed enabled <;> cases stepped
      · exact .logClosed here closed
      · exact .logAdmit here (by simpa using closed) enabled
      · exact .logFilter here (by simpa using closed) (by simpa using enabled)
  | logLock record =>
      simp only [here] at stepped
      split_ifs at stepped with free
      cases stepped
      exact .logLock here free
  | logSend record =>
      simp only [here] at stepped
      split_ifs at stepped with gone accepts
      · cases stepped
        exact .logGone here gone
      · cases stepped
        exact .logSent here gone accepts
      · cases policy : setup.backpressure with
        | block => simp [policy] at stepped
        | dropNewest =>
            simp only [policy] at stepped
            cases stepped
            exact .logFull here gone accepts policy
  | logFull record =>
      simp only [here] at stepped
      cases stepped
      exact .logRefuse here
  | logOrphan record =>
      simp only [here] at stepped
      cases stepped
      exact .logEmergency here
  | shutStore =>
      simp only [here] at stepped
      cases stepped
      exact .shutStore here
  | ctrlLock control =>
      simp only [here] at stepped
      split_ifs at stepped with free
      cases stepped
      exact .ctrlLock here free
  | ctrlSend control =>
      simp only [here] at stepped
      split_ifs at stepped with gone accepts <;> cases stepped
      · exact .ctrlGone here gone
      · exact .ctrlSent here gone accepts
  | ctrlWait control =>
      simp only [here] at stepped
      split_ifs at stepped with live
      cases control <;> cases stepped
      · exact .flushAcked here live
      · exact .shutAcked here live
  | shutHandle =>
      simp only [here] at stepped
      split_ifs at stepped with free untaken <;> cases stepped
      · exact .shutTake here free untaken
      · exact .shutLate here free (by simpa using untaken)
  | shutJoin =>
      simp only [here] at stepped
      split_ifs at stepped with gone
      cases stepped
      exact .shutJoined here gone

theorem fires_of_writerStep {setup : Setup} {s next : State n}
    (stepped : writerStep setup s = some next) : Fires setup s .writer next := by
  unfold writerStep at stepped
  cases here : s.writer with
  | recv waiting =>
      simp only [here] at stepped
      cases queued : s.queue with
      | nil =>
          simp only [queued] at stepped
          split_ifs at stepped with disconnected parked <;> cases stepped
          · exact .hangUp here queued disconnected
          · rw [Bool.not_eq_true] at parked
            exact .park (parked ▸ here) queued disconnected
      | cons msg rest =>
          simp only [queued] at stepped
          cases stepped
          exact .take here queued
  | handling msg =>
      simp only [here] at stepped
      cases stepped
      exact .handle here
  | final =>
      simp only [here] at stepped
      cases stepped
      exact .exit here
  | exited =>
      simp only [here] at stepped
      contradiction

/-- Every step is an instance of a rule. -/
theorem fires_of_step {setup : Setup} {s next : State n} {action : Action n}
    (stepped : step setup s action = some next) : Fires setup s action next := by
  cases action with
  | call c op =>
      simp only [step] at stepped
      split_ifs at stepped with ready
      cases stepped
      exact .call ready.1 ready.2
  | clone c target =>
      simp only [step] at stepped
      split_ifs at stepped with ready
      cases stepped
      exact .clone ready.1 ready.2
  | drop c =>
      simp only [step] at stepped
      split_ifs at stepped with ready
      cases stepped
      exact .drop ready.1 ready.2
  | caller c => exact fires_of_callerStep stepped
  | writer => exact fires_of_writerStep stepped

end XosLog.Logger
