import XosLog.Syslog.Delivery

/-!
# Delivery over UDP

The remote sink has one socket, connected when the sink is made, and sends each
datagram on it once.  Whether a datagram arrives is not seen; the answer to a send is
that of the operating system.
-/

namespace XosLog.Syslog

/-- A bound UDP socket, connected to an address. -/
structure UdpSocket where
  peer : Text
  deriving DecidableEq, Repr

structure RemoteSyslogSink where
  socket : UdpSocket
  facility : Facility
  ident : Text
  hostname : Text
  pid : Nat
  deriving DecidableEq, Repr

/-- A datagram handed to a socket, and its answer: none when it was sent, or the code of
the error. -/
structure Sent where
  peer : Text
  packet : Bytes
  error : Option Int
  deriving DecidableEq, Repr

/-- The answer to a send after a history of sends. -/
abbrev Udp := List Sent → Text → Bytes → Option Int

/-- A remote sink with the history of its sends. -/
structure RemoteWorld where
  sink : RemoteSyslogSink
  trace : List Sent

namespace RemoteSyslogSink

/-- `RemoteSyslogSink::new`, with the answers to binding and connecting the socket. -/
def new (bind connect : Option Int) (addr : Text) (facility : Facility) (ident hostname : Text)
    (pid : Nat) : Except IoError RemoteSyslogSink :=
  match bind with
  | some code => .error (.os code)
  | none =>
      match connect with
      | some code => .error (.os code)
      | none => .ok { socket := ⟨addr⟩, facility, ident := sanitizeIdent ident, hostname, pid }

/-- The datagram of a call. -/
def buildPacket (sink : RemoteSyslogSink) (call : Call) : Bytes :=
  Syslog.buildPacket sink.facility call.level call.timestamp sink.hostname sink.ident sink.pid
    call.formatted

end RemoteSyslogSink

/-- Deliver a formatted record as a syslog datagram. -/
def deliverRemote (udp : Udp) (call : Call) (world : RemoteWorld) :
    RemoteWorld × Except IoError Unit :=
  let packet := world.sink.buildPacket call
  let error := udp world.trace world.sink.socket.peer packet
  ({ world with trace := world.trace ++ [⟨world.sink.socket.peer, packet, error⟩] },
    match error with
    | none => .ok ()
    | some code => .error (.os code))

end XosLog.Syslog
