import XosLog.Syslog.Remote
import XosLog.Writer.SyslogSlot

/-!
# A remote syslog sink in a slot

Every record that the sink is called with is sent as one datagram, once, and the call
ends as the send does.
-/

namespace XosLog.Writer

open Syslog

/-- What a call of the writer does to a remote sink. -/
def callRemote (udp : Udp) (call : SinkCall) (world : RemoteWorld) : RemoteWorld × Outcome :=
  match call with
  | .writeEntry entry formatted =>
      match deliverRemote udp (callOf entry formatted) world with
      | (world, .ok ()) => (world, .ok)
      | (world, .error _) => (world, .err)
  | .flush => (world, .ok)

/-- Remote sinks on a network. -/
def remoteDevice (udp : Udp) : Device RemoteWorld where
  call _ := callRemote udp

/-- The send made for a record, and how its call ended. -/
def SentFor (sink : RemoteSyslogSink) (answer : (LogEntry × Bytes) × Outcome) (sent : Sent) :
    Prop :=
  sent.peer = sink.socket.peer ∧
    sent.packet = sink.buildPacket (callOf answer.1.1 answer.1.2) ∧
    answer.2 = if sent.error = none then .ok else .err

/-- What a call on a record does. -/
theorem sentFor_callRemote (udp : Udp) (entry : LogEntry) (formatted : Bytes)
    (world : RemoteWorld) :
    ∃ sent, SentFor world.sink ((entry, formatted),
        (callRemote udp (.writeEntry entry formatted) world).2) sent ∧
      (callRemote udp (.writeEntry entry formatted) world).1 =
        { world with trace := world.trace ++ [sent] } := by
  refine ⟨⟨world.sink.socket.peer, world.sink.buildPacket (callOf entry formatted),
    udp world.trace world.sink.socket.peer (world.sink.buildPacket (callOf entry formatted))⟩,
    ⟨rfl, rfl, ?_⟩, ?_⟩
  · rw [callRemote, deliverRemote]
    generalize udp _ _ _ = error
    cases error <;> rfl
  · rw [callRemote, deliverRemote]
    generalize udp _ _ _ = error
    cases error <;> rfl

/-- The sends are those of the records, one each and in order. -/
theorem sent_replay {udp : Udp} {first : RemoteWorld} {sink : Sink}
    (isBoxed : sink.behave = ((remoteDevice udp).boxed first).behave) :
    ∃ sends, List.Forall₂ (SentFor first.sink) sink.answers sends ∧
      (remoteDevice udp).replay first sink.calls =
        { first with trace := first.trace ++ sends } := by
  refine @Device.exists_left _ _ _ _ (SentFor first.sink) (fun sends world =>
    world = { first with trace := first.trace ++ sends }) ?_ ?_ ?_ sink isBoxed
  · rw [List.append_nil]
  · exact fun _ _ _ holds => holds
  · rintro k entry formatted sends _ rfl
    obtain ⟨sent, sentFor, moved⟩ := sentFor_callRemote udp entry formatted
      { first with trace := first.trace ++ sends }
    refine ⟨sent, sentFor, ?_⟩
    rw [← List.append_assoc]
    exact moved

end XosLog.Writer
