import XosLog.Syslog.Delivery
import XosLog.Writer.Device

/-!
# A syslog sink in a slot

In the writer's hands a syslog sink delivers each record at the record's own level and
timestamp.  Whatever the daemons do between two attempts, a record has one accepted
datagram when its call succeeded, and none when it failed.
-/

namespace XosLog.Writer

open Syslog

/-- The delivery of a record: `SyslogSink::write_entry`. -/
def callOf (entry : LogEntry) (formatted : Bytes) : Call :=
  ⟨entry.level, entry.timestamp, formatted⟩

/-- What a call of the writer does to a syslog sink. -/
def callSyslog (os : Os) (call : SinkCall) (world : Syslog.World) : Syslog.World × Outcome :=
  match call with
  | .writeEntry entry formatted =>
      match deliver os (callOf entry formatted) world with
      | (world, .ok ()) => (world, .ok)
      | (world, .error _) => (world, .err)
  | .flush => (world, .ok)

/-- Syslog sinks on an operating system. -/
def syslogDevice (os : Os) : Device Syslog.World where
  call _ := callSyslog os

/-- The attempts made for a record, and how its call ended after them. -/
inductive Attempted (sink : SyslogSink) :
    (LogEntry × Bytes) × Writer.Outcome → List Event → Prop
  | delivered {entry : LogEntry} {formatted : Bytes} {events : List Event}
      (outcome : Syslog.Outcome sink.paths (sink.buildPacket (callOf entry formatted)) events
        (.ok ())) :
      Attempted sink ((entry, formatted), .ok) events
  | failed {entry : LogEntry} {formatted : Bytes} {events : List Event} {error : IoError}
      (outcome : Syslog.Outcome sink.paths (sink.buildPacket (callOf entry formatted)) events
        (.error error)) :
      Attempted sink ((entry, formatted), .err) events

/-- The attempts depend on no more of a sink than its calls leave alone. -/
theorem Attempted.of_after {world : Syslog.World} {socket : Option UnixDatagram}
    {earlier events : List Event} {answer : (LogEntry × Bytes) × Writer.Outcome}
    (attempted : Attempted (world.after socket earlier).sink answer events) :
    Attempted world.sink answer events := by
  cases attempted with
  | delivered outcome => exact .delivered outcome
  | failed outcome => exact .failed outcome

/-- The packets of the records whose calls succeeded. -/
def packetsOf (sink : SyslogSink) (answers : List ((LogEntry × Bytes) × Outcome)) :
    List Bytes :=
  (answers.filter fun answer => answer.2 = .ok).map fun answer =>
    sink.buildPacket (callOf answer.1.1 answer.1.2)

/-- A call that succeeded has its packet accepted once, one that failed has none. -/
theorem Attempted.accepted {sink : SyslogSink} {answer : (LogEntry × Bytes) × Outcome}
    {events : List Event} (attempted : Attempted sink answer events) :
    accepted events = packetsOf sink [answer] := by
  cases attempted with
  | delivered outcome =>
      cases outcome with
      | delivered silent =>
          rw [accepted_append, silent]
          rfl
  | failed outcome =>
      cases outcome with
      | unreachable silent all =>
          rw [accepted_append, silent, all.accepted]
          rfl
      | sendFailed silent fresh =>
          rw [accepted_append, accepted_append, silent, fresh.accepted]
          rfl

theorem accepted_flatten {sink : SyslogSink} {answers : List ((LogEntry × Bytes) × Outcome)}
    {attempts : List (List Event)} (all : List.Forall₂ (Attempted sink) answers attempts) :
    accepted attempts.flatten = packetsOf sink answers := by
  induction all with
  | nil => rfl
  | @cons answer events answers attempts attempted _ inductionHypothesis =>
      have split : packetsOf sink (answer :: answers) =
          packetsOf sink [answer] ++ packetsOf sink answers := by
        rw [packetsOf, packetsOf, packetsOf, ← List.map_append, ← List.filter_append]
        rfl
      rw [List.flatten_cons, accepted_append, attempted.accepted, inductionHypothesis, split]

/-- What a call on a record does. -/
theorem attempted_callSyslog (os : Os) (entry : LogEntry) (formatted : Bytes)
    (world : Syslog.World) :
    ∃ events socket,
      Attempted world.sink ((entry, formatted),
        (callSyslog os (.writeEntry entry formatted) world).2) events ∧
      (callSyslog os (.writeEntry entry formatted) world).1 = world.after socket events := by
  obtain ⟨events, socket, outcome, moved⟩ := deliver_cases os (callOf entry formatted) world
  refine ⟨events, socket, ?_⟩
  rw [callSyslog]
  generalize deliver os (callOf entry formatted) world = delivered at outcome moved ⊢
  obtain ⟨after, result⟩ := delivered
  cases result with
  | ok => exact ⟨.delivered outcome, moved⟩
  | error => exact ⟨.failed outcome, moved⟩

/-- All that has been attempted is explained by the records, one after another. -/
theorem attempted_replay {os : Os} {first : Syslog.World} {sink : Sink}
    (isBoxed : sink.behave = ((syslogDevice os).boxed first).behave) :
    ∃ attempts, List.Forall₂ (Attempted first.sink) sink.answers attempts ∧
      ∃ socket, (syslogDevice os).replay first sink.calls =
        first.after socket attempts.flatten := by
  refine @Device.exists_left _ _ _ _ (Attempted first.sink) (fun attempts world =>
    ∃ socket, world = first.after socket attempts.flatten) ?_ ?_ ?_ sink isBoxed
  · refine ⟨first.sink.socket, ?_⟩
    rw [List.flatten_nil, World.after, List.append_nil]
  · exact fun _ _ _ holds => holds
  · rintro k entry formatted attempts _ ⟨socket, rfl⟩
    obtain ⟨events, next, attempted, moved⟩ :=
      attempted_callSyslog os entry formatted (first.after socket attempts.flatten)
    refine ⟨events, attempted.of_after, next, ?_⟩
    rw [List.flatten_concat, ← World.after_after first socket]
    exact moved

end XosLog.Writer
