import XosLog.Logger.Slots
import XosLog.Writer.RemoteSlot

/-!
# From the callers to the daemons

A logger one of whose sinks is a syslog sink: in every reachable state, whatever the
interleaving and whatever the daemons do, every handled record at or above the floor has
one accepted datagram, or its call has failed, or it is on standard error.
-/

namespace XosLog.Logger

open Syslog Transition Writer

variable {n : Nat} {setup : Setup} {owner : Fin n} {actions : List (Action n)} {s : State n}
  {i : Nat} {minLevel : Level}

/-- Exactly once or an error.  The records of a syslog slot have been delivered or
diverted as those of any slot.  The attempts of its sink are those of its calls, one after
another, and the daemons have accepted one datagram for each call that succeeded, in the
same order, and no others. -/
theorem syslog_accepts_once {os : Os} {first : Syslog.World}
    (found : setup.slots[i]? = some (.new ((syslogDevice os).boxed first) minLevel))
    (ran : run (step setup) (State.init setup owner) actions = some s) :
    ∃ slot diverted attempts, s.slots[i]? = some slot ∧
      Divided setup.format minLevel (FlushCanPanic setup.slots)
        ((recordsOf (observed (step setup) served (State.init setup owner) actions)).map
          Prod.snd) s.stderr slot.sink.answers diverted ∧
      List.Forall₂ (Attempted first.sink) slot.sink.answers attempts ∧
      ((syslogDevice os).replay first slot.sink.calls).trace = first.trace ++ attempts.flatten ∧
      accepted ((syslogDevice os).replay first slot.sink.calls).trace =
        accepted first.trace ++ packetsOf first.sink slot.sink.answers := by
  obtain ⟨slot, written, _, diverted, reached, within, fed⟩ := fed_of_run rfl found ran
  obtain ⟨attempts, all, socket, replayed⟩ := attempted_replay fed.behave_eq
  refine ⟨slot, diverted, attempts, reached, fed.divided within, all, ?_, ?_⟩
  · rw [replayed]
    rfl
  · rw [replayed, ← accepted_flatten all]
    exact accepted_append _ _

/-- One send a record.  The records of a remote slot have been sent or diverted as those
of any slot, each in one datagram and in order.  A send that fails is not repeated. -/
theorem remote_sends_once {udp : Udp} {first : RemoteWorld}
    (found : setup.slots[i]? = some (.new ((remoteDevice udp).boxed first) minLevel))
    (ran : run (step setup) (State.init setup owner) actions = some s) :
    ∃ slot diverted sends, s.slots[i]? = some slot ∧
      Divided setup.format minLevel (FlushCanPanic setup.slots)
        ((recordsOf (observed (step setup) served (State.init setup owner) actions)).map
          Prod.snd) s.stderr slot.sink.answers diverted ∧
      List.Forall₂ (SentFor first.sink) slot.sink.answers sends ∧
      ((remoteDevice udp).replay first slot.sink.calls).trace = first.trace ++ sends := by
  obtain ⟨slot, written, _, diverted, reached, within, fed⟩ := fed_of_run rfl found ran
  obtain ⟨sends, all, replayed⟩ := sent_replay fed.behave_eq
  refine ⟨slot, diverted, sends, reached, fed.divided within, all, ?_⟩
  rw [replayed]

/-! ## A logger with two daemons -/

/-- A sink for one local socket that has not connected yet. -/
def localWorld : Syslog.World where
  sink := ⟨["/dev/log".toList], .user, "app".toList, "host".toList, 1, none⟩
  trace := []

def remoteWorld : RemoteWorld where
  sink := ⟨⟨"[::1]:514".toList⟩, .user, "app".toList, "host".toList, 1⟩
  trace := []

/-- The daemon takes a connection and one packet, and then answers no more. -/
def shortLived : Os :=
  fun events _ => if events.length < 3 then none else some 111

/-- A local sink whose daemon goes away, a remote one whose sends fail after the first
one, and a sink that panics when it is flushed. -/
def daemonsSetup : Setup :=
  { blockingSetup with
    slots := [.new ((syslogDevice shortLived).boxed localWorld) .warn,
      .new ((remoteDevice fun sends _ _ => if sends = [] then none else some 111).boxed
        remoteWorld) .warn,
      .new ⟨flushPanics, []⟩ .trace] }

/-- Two warnings are sent, a record below the floor is not, and the last warning is
diverted. -/
theorem exists_daemonsRun :
    ∃ s : State 1,
      run (step daemonsSetup) (State.init daemonsSetup 0) (mixedRun 0 warnEntry) = some s ∧
      (s.slots.map fun slot => slot.sink.answers.map Prod.snd) =
        [[.ok, .err], [.ok, .err], [.ok, .ok, .ok]] :=
  Option.map_eq_some_iff.mp (by decide +kernel)

theorem syslog_accepts_once_daemons :
    ∃ (s : State 1) (slot : SinkSlot) (attempts : List (List Event)), s.slots[0]? = some slot ∧
      slot.sink.answers.map Prod.snd = [.ok, .err] ∧
      List.Forall₂ (Attempted localWorld.sink) slot.sink.answers attempts ∧
      accepted ((syslogDevice shortLived).replay localWorld slot.sink.calls).trace =
        packetsOf localWorld.sink slot.sink.answers := by
  obtain ⟨s, ran, ended⟩ := exists_daemonsRun
  have found : daemonsSetup.slots[0]? =
      some (.new ((syslogDevice shortLived).boxed localWorld) .warn) := rfl
  obtain ⟨slot, _, attempts, reached, _, all, _, accepts⟩ := syslog_accepts_once found ran
  have answers := congrArg (fun slots => slots[0]?) ended
  rw [List.getElem?_map, reached] at answers
  exact ⟨s, slot, attempts, reached, Option.some.inj answers, all, accepts⟩

theorem remote_sends_once_daemons :
    ∃ (s : State 1) (slot : SinkSlot) (sends : List Sent), s.slots[1]? = some slot ∧
      slot.sink.answers.map Prod.snd = [.ok, .err] ∧
      List.Forall₂ (SentFor remoteWorld.sink) slot.sink.answers sends := by
  obtain ⟨s, ran, ended⟩ := exists_daemonsRun
  have found : daemonsSetup.slots[1]? =
      some (.new ((remoteDevice fun sends _ _ => if sends = [] then none else some 111).boxed
        remoteWorld) .warn) := rfl
  obtain ⟨slot, _, sends, reached, _, all, _⟩ := remote_sends_once found ran
  have answers := congrArg (fun slots => slots[1]?) ended
  rw [List.getElem?_map, reached] at answers
  exact ⟨s, slot, sends, reached, Option.some.inj answers, all⟩

end XosLog.Logger
