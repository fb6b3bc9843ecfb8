import XosLog.Syslog.Packet

/-!
# Delivery to a local daemon

The sink connects lazily to the first reachable socket of its list, and a send
that fails is repeated once on a new connection.  The operating system is an
oracle that answers every attempt from the history of the attempts before it, so
a daemon may come, go or restart between any two of them.
-/

namespace XosLog.Syslog

/-! ## The operating system -/

/-- What the sink asks of the operating system. -/
inductive Attempt
  | unbound
  | connect (path : Text)
  /-- A datagram sent on a socket that is connected to a path. -/
  | send (path : Text) (packet : Bytes)
  deriving DecidableEq, Repr

/-- An attempt and its answer: none when it succeeded, or the code of the error. -/
structure Event where
  attempt : Attempt
  error : Option Int
  deriving DecidableEq, Repr

/-- The answer to an attempt after a history of events. -/
abbrev Os := List Event → Attempt → Option Int

/-- An `io::Error`, from the operating system or made by the sink. -/
inductive IoError
  | os (code : Int)
  | connectionRefused (message : Text)
  deriving DecidableEq, Repr

/-- The datagrams that daemons accepted: a send that fails delivers nothing. -/
def accepted (trace : List Event) : List Bytes :=
  trace.filterMap fun event =>
    match event with
    | ⟨.send _ packet, none⟩ => some packet
    | _ => none

@[simp]
theorem accepted_append (first second : List Event) :
    accepted (first ++ second) = accepted first ++ accepted second :=
  List.filterMap_append

/-! ## The sink -/

/-- A datagram socket, connected to a path. -/
structure UnixDatagram where
  peer : Text
  deriving DecidableEq, Repr

structure SyslogSink where
  paths : List Text
  facility : Facility
  ident : Text
  hostname : Text
  pid : Nat
  socket : Option UnixDatagram
  deriving DecidableEq, Repr

/-- A sink with the history of its attempts. -/
structure World where
  sink : SyslogSink
  trace : List Event
  deriving DecidableEq, Repr

/-- The arguments of a call of `deliver`. -/
structure Call where
  level : Level
  timestamp : Timestamp
  formatted : Bytes
  deriving DecidableEq, Repr

/-- `SyslogSink::build_packet`. -/
def SyslogSink.buildPacket (sink : SyslogSink) (call : Call) : Bytes :=
  Syslog.buildPacket sink.facility call.level call.timestamp sink.hostname sink.ident sink.pid
    call.formatted

section

variable (os : Os)

/-- Make one attempt. -/
def attempt (request : Attempt) (trace : List Event) : Option Int × List Event :=
  (os trace request, trace ++ [⟨request, os trace request⟩])

/-- The loop of `reconnect`: a socket for the first path that can be connected. -/
def connectFirst : List Text → List Event → Option UnixDatagram × List Event
  | [], trace => (none, trace)
  | path :: paths, trace =>
      match attempt os .unbound trace with
      | (some _, trace) => connectFirst paths trace
      | (none, trace) =>
          match attempt os (.connect path) trace with
          | (some _, trace) => connectFirst paths trace
          | (none, trace) => (some ⟨path⟩, trace)

/-- Establish a connection to the first reachable socket path. -/
def reconnect (world : World) : World × Except IoError Unit :=
  match connectFirst os world.sink.paths world.trace with
  | (some sock, trace) => ({ sink := { world.sink with socket := some sock }, trace }, .ok ())
  | (none, trace) =>
      ({ sink := { world.sink with socket := none }, trace },
        .error (.connectionRefused "no reachable syslog socket".toList))

/-- `UnixDatagram::send` on the socket of the sink. -/
def send (sock : UnixDatagram) (packet : Bytes) (world : World) : World × Option Int :=
  let (error, trace) := attempt os (.send sock.peer packet) world.trace
  ({ world with trace }, error)

/-- Deliver a formatted record as a syslog datagram. -/
def deliver (call : Call) (world : World) : World × Except IoError Unit :=
  let (world, connected) :=
    match world.sink.socket with
    | none => reconnect os world
    | some _ => (world, .ok ())
  match connected with
  | .error error => (world, .error error)
  | .ok () =>
      let packet := world.sink.buildPacket call
      match world.sink.socket with
      | none => (world, .error (.connectionRefused "no syslog socket available".toList))
      | some sock =>
          match send os sock packet world with
          | (world, none) => (world, .ok ())
          | (world, some first) =>
              -- The daemon may have restarted; reconnect once and retry.
              match reconnect os world with
              | (world, .error _) => (world, .error (.os first))
              | (world, .ok ()) =>
                  match world.sink.socket with
                  | none => (world, .error (.os first))
                  | some sock =>
                      match send os sock packet world with
                      | (world, none) => (world, .ok ())
                      | (world, some error) => (world, .error (.os error))

end

/-! ## Reconnecting -/

/-- The events of trying every path in order, none of which can be connected. -/
inductive Unreachable : List Text → List Event → Prop
  | nil : Unreachable [] []
  | noSocket {path : Text} {paths : List Text} {code : Int} {events : List Event}
      (others : Unreachable paths events) :
      Unreachable (path :: paths) (⟨.unbound, some code⟩ :: events)
  | refused {path : Text} {paths : List Text} {code : Int} {events : List Event}
      (others : Unreachable paths events) :
      Unreachable (path :: paths) (⟨.unbound, none⟩ :: ⟨.connect path, some code⟩ :: events)

/-- The events of connecting the first path that can be connected. -/
inductive Connects : List Text → Text → List Event → Prop
  | here {path : Text} {others : List Text} :
      Connects (path :: others) path [⟨.unbound, none⟩, ⟨.connect path, none⟩]
  | noSocket {skipped path : Text} {paths : List Text} {code : Int} {events : List Event}
      (later : Connects paths path events) :
      Connects (skipped :: paths) path (⟨.unbound, some code⟩ :: events)
  | refused {skipped path : Text} {paths : List Text} {code : Int} {events : List Event}
      (later : Connects paths path events) :
      Connects (skipped :: paths) path
        (⟨.unbound, none⟩ :: ⟨.connect skipped, some code⟩ :: events)

theorem Unreachable.accepted {paths : List Text} {events : List Event}
    (failed : Unreachable paths events) : accepted events = [] := by
  induction failed with
  | nil => rfl
  | noSocket _ inductionHypothesis | refused _ inductionHypothesis => exact inductionHypothesis

theorem Connects.accepted {paths : List Text} {path : Text} {events : List Event}
    (connects : Connects paths path events) : accepted events = [] := by
  induction connects with
  | here => rfl
  | noSocket _ inductionHypothesis | refused _ inductionHypothesis => exact inductionHypothesis

theorem connectFirst_cases (os : Os) (paths : List Text) (trace : List Event) :
    (∃ events, Unreachable paths events ∧
      connectFirst os paths trace = (none, trace ++ events)) ∨
    ∃ path events, Connects paths path events ∧
      connectFirst os paths trace = (some ⟨path⟩, trace ++ events) := by
  induction paths generalizing trace with
  | nil =>
      left
      exact ⟨[], .nil, by rw [List.append_nil, connectFirst]⟩
  | cons path paths inductionHypothesis =>
      cases unbound : os trace .unbound with
      | some code =>
          have next : connectFirst os (path :: paths) trace =
              connectFirst os paths (trace ++ [⟨.unbound, some code⟩]) := by
            simp only [connectFirst, attempt, unbound]
          rw [next]
          rcases inductionHypothesis (trace ++ [⟨.unbound, some code⟩]) with
            ⟨events, failed, same⟩ | ⟨found, events, connects, same⟩
          · left
            exact ⟨_, .noSocket failed, by rw [same, List.append_assoc, List.singleton_append]⟩
          · right
            exact ⟨found, _, .noSocket connects,
              by rw [same, List.append_assoc, List.singleton_append]⟩
      | none =>
          cases connect : os (trace ++ [⟨.unbound, none⟩]) (.connect path) with
          | some code =>
              have next : connectFirst os (path :: paths) trace = connectFirst os paths
                  (trace ++ [⟨.unbound, none⟩, ⟨.connect path, some code⟩]) := by
                simp only [connectFirst, attempt, unbound, connect, List.append_assoc,
                  List.singleton_append]
              rw [next]
              rcases inductionHypothesis
                  (trace ++ [⟨.unbound, none⟩, ⟨.connect path, some code⟩]) with
                ⟨events, failed, same⟩ | ⟨found, events, connects, same⟩
              · left
                exact ⟨_, .refused failed, by rw [same, List.append_assoc]; rfl⟩
              · right
                exact ⟨found, _, .refused connects, by rw [same, List.append_assoc]; rfl⟩
          | none =>
              right
              refine ⟨path, _, .here, ?_⟩
              simp only [connectFirst, attempt, unbound, connect, List.append_assoc,
                List.singleton_append]

/-- The world after more events that change nothing of the sink but its socket. -/
def World.after (world : World) (socket : Option UnixDatagram) (events : List Event) : World :=
  { sink := { world.sink with socket }, trace := world.trace ++ events }

@[simp]
theorem World.after_socket (world : World) (socket : Option UnixDatagram) (events : List Event) :
    (world.after socket events).sink.socket = socket :=
  rfl

@[simp]
theorem World.after_paths (world : World) (socket : Option UnixDatagram) (events : List Event) :
    (world.after socket events).sink.paths = world.sink.paths :=
  rfl

@[simp]
theorem World.after_buildPacket (world : World) (socket : Option UnixDatagram)
    (events : List Event) (call : Call) :
    (world.after socket events).sink.buildPacket call = world.sink.buildPacket call :=
  rfl

@[simp]
theorem World.after_after (world : World) (first second : Option UnixDatagram)
    (events later : List Event) :
    (world.after first events).after second later = world.after second (events ++ later) := by
  simp [after]

/-- What a reconnection does: it tries the paths in order, and changes nothing of
the sink but the socket. -/
theorem reconnect_cases (os : Os) (world : World) :
    (∃ events error, Unreachable world.sink.paths events ∧
      reconnect os world = (world.after none events, .error error)) ∨
    ∃ path events, Connects world.sink.paths path events ∧
      reconnect os world = (world.after (some ⟨path⟩) events, .ok ()) := by
  unfold reconnect
  rcases connectFirst_cases os world.sink.paths world.trace with
    ⟨events, failed, same⟩ | ⟨path, events, connects, same⟩
  · left
    rw [same]
    exact ⟨events, _, failed, rfl⟩
  · right
    rw [same]
    exact ⟨path, events, connects, rfl⟩

/-! ## One call -/

/-- The call ended with trying every path in vain. -/
def NoneReachable (paths : List Text) (events : List Event) : Prop :=
  ∃ before failed, events = before ++ failed ∧ Unreachable paths failed

/-- The call ended with a failed send on a new connection to the first reachable
path. -/
def FreshSendFailed (paths : List Text) (packet : Bytes) (events : List Event) : Prop :=
  ∃ before connecting path code, Connects paths path connecting ∧
    events = before ++ connecting ++ [⟨.send path packet, some code⟩]

/-- What a call may do: it succeeds with one accepted datagram, its last event, or
it fails for one of two reasons and no datagram is accepted. -/
inductive Outcome (paths : List Text) (packet : Bytes) :
    List Event → Except IoError Unit → Prop
  | delivered {before : List Event} {path : Text} (silent : accepted before = []) :
      Outcome paths packet (before ++ [⟨.send path packet, none⟩]) (.ok ())
  | unreachable {before failed : List Event} {error : IoError} (silent : accepted before = [])
      (all : Unreachable paths failed) : Outcome paths packet (before ++ failed) (.error error)
  | sendFailed {before connecting : List Event} {path : Text} {code : Int}
      (silent : accepted before = []) (fresh : Connects paths path connecting) :
      Outcome paths packet (before ++ connecting ++ [⟨.send path packet, some code⟩])
        (.error (.os code))

theorem Outcome.after {paths : List Text} {packet : Bytes} {events : List Event}
    {result : Except IoError Unit} {first : List Event} (quiet : accepted first = [])
    (outcome : Outcome paths packet events result) :
    Outcome paths packet (first ++ events) result := by
  have silently {before : List Event} (silent : accepted before = []) :
      accepted (first ++ before) = [] := by
    rw [accepted_append, quiet, silent, List.append_nil]
  cases outcome with
  | delivered silent =>
      rw [← List.append_assoc]
      exact .delivered (silently silent)
  | unreachable silent all =>
      rw [← List.append_assoc]
      exact .unreachable (silently silent) all
  | sendFailed silent fresh =>
      rw [← List.append_assoc, ← List.append_assoc]
      exact .sendFailed (silently silent) fresh

theorem send_eq (os : Os) (sock : UnixDatagram) (packet : Bytes) (world : World)
    (connected : world.sink.socket = some sock) :
    send os sock packet world =
      (world.after (some sock)
          [⟨.send sock.peer packet, os world.trace (.send sock.peer packet)⟩],
        os world.trace (.send sock.peer packet)) := by
  simp only [send, attempt, World.after, ← connected]

/-- A call on a connected socket. -/
theorem deliver_connected (os : Os) (call : Call) {world : World} {sock : UnixDatagram}
    (connected : world.sink.socket = some sock) :
    ∃ events socket,
      Outcome world.sink.paths (world.sink.buildPacket call) events (deliver os call world).2 ∧
        (deliver os call world).1 = world.after socket events := by
  have sent := send_eq os sock (world.sink.buildPacket call) world connected
  cases first : os world.trace (.send sock.peer (world.sink.buildPacket call)) with
  | none =>
      rw [first] at sent
      have delivered : Outcome world.sink.paths (world.sink.buildPacket call)
          ([] ++ [⟨.send sock.peer (world.sink.buildPacket call), none⟩]) (.ok ()) :=
        .delivered rfl
      simp only [deliver, connected, sent]
      exact ⟨_, _, delivered, rfl⟩
  | some code =>
      rw [first] at sent
      rcases reconnect_cases os (world.after (some sock)
          [⟨.send sock.peer (world.sink.buildPacket call), some code⟩]) with
        ⟨events, error, failed, same⟩ | ⟨path, events, connects, same⟩
      · simp only [deliver, connected, sent, same, World.after_after]
        exact ⟨_, _, .unreachable rfl failed, rfl⟩
      · have silent : accepted ([⟨.send sock.peer (world.sink.buildPacket call), some code⟩] ++
            events) = [] := by
          rw [accepted_append, connects.accepted]
          rfl
        have again := send_eq os ⟨path⟩ (world.sink.buildPacket call)
          (world.after (some ⟨path⟩)
            ([⟨.send sock.peer (world.sink.buildPacket call), some code⟩] ++ events)) rfl
        cases second : os (world.after (some ⟨path⟩)
            ([⟨.send sock.peer (world.sink.buildPacket call), some code⟩] ++ events)).trace
            (.send path (world.sink.buildPacket call)) with
        | none =>
            rw [second] at again
            simp only [deliver, connected, sent, same, World.after_after, World.after_socket,
              again]
            exact ⟨_, _, .delivered silent, rfl⟩
        | some code =>
            rw [second] at again
            simp only [deliver, connected, sent, same, World.after_after, World.after_socket,
              again]
            exact ⟨_, _, .sendFailed rfl connects, rfl⟩

/-- What a call does: its outcome, and a sink that keeps all but its socket. -/
theorem deliver_cases (os : Os) (call : Call) (world : World) :
    ∃ events socket,
      Outcome world.sink.paths (world.sink.buildPacket call) events (deliver os call world).2 ∧
        (deliver os call world).1 = world.after socket events := by
  cases lazily : world.sink.socket with
  | some sock => exact deliver_connected os call lazily
  | none =>
      rcases reconnect_cases os world with
        ⟨events, error, failed, same⟩ | ⟨path, events, connects, same⟩
      · simp only [deliver, lazily, same]
        exact ⟨[] ++ events, none, .unreachable rfl failed, rfl⟩
      · have connected : deliver os call world =
            deliver os call (world.after (some ⟨path⟩) events) := by
          simp only [deliver, lazily, same, World.after_socket]
        obtain ⟨later, socket, outcome, reached⟩ :=
          deliver_connected os call (World.after_socket world (some ⟨path⟩) events)
        rw [connected, reached, World.after_after]
        exact ⟨_, _, outcome.after connects.accepted, rfl⟩

/-! ## Runs -/

/-- A call with what it attempted and what it returned. -/
structure Delivery where
  call : Call
  events : List Event
  result : Except IoError Unit

/-- Perform calls one after another. -/
def deliverAll (os : Os) : World → List Call → World × List Delivery
  | world, [] => (world, [])
  | world, call :: calls =>
      let (next, result) := deliver os call world
      let (last, deliveries) := deliverAll os next calls
      (last, ⟨call, next.trace.drop world.trace.length, result⟩ :: deliveries)

def Delivery.succeeded (delivery : Delivery) : Bool :=
  match delivery.result with
  | .ok () => true
  | .error _ => false

/-- The packets of the calls that returned `Ok`, in order. -/
def confirmed (sink : SyslogSink) (deliveries : List Delivery) : List Bytes :=
  (deliveries.filter Delivery.succeeded).map fun delivery => sink.buildPacket delivery.call

/-- Why a call may fail. -/
def Delivery.Excused (sink : SyslogSink) (delivery : Delivery) : Prop :=
  NoneReachable sink.paths delivery.events ∨
    FreshSendFailed sink.paths (sink.buildPacket delivery.call) delivery.events

section

variable {sink : SyslogSink} {call : Call} {events : List Event} {result : Except IoError Unit}

/-- A call adds its packet to what was accepted exactly when it returned `Ok`. -/
theorem Outcome.confirmed_cons
    (outcome : Outcome sink.paths (sink.buildPacket call) events result)
    (later : List Delivery) :
    confirmed sink (⟨call, events, result⟩ :: later) = accepted events ++ confirmed sink later := by
  cases outcome with
  | delivered silent =>
      rw [accepted_append, silent]
      rfl
  | unreachable silent all =>
      rw [accepted_append, silent, all.accepted]
      rfl
  | sendFailed silent fresh =>
      rw [accepted_append, accepted_append, silent, fresh.accepted]
      rfl

theorem Outcome.excused (outcome : Outcome sink.paths (sink.buildPacket call) events result)
    (failed : Delivery.succeeded ⟨call, events, result⟩ = false) :
    Delivery.Excused sink ⟨call, events, result⟩ := by
  cases outcome with
  | delivered _ => contradiction
  | unreachable _ all => exact Or.inl ⟨_, _, rfl, all⟩
  | sendFailed _ fresh => exact Or.inr ⟨_, _, _, _, fresh, rfl⟩

end

/-- In any run the daemons accept exactly the packets of the calls that returned
`Ok`, one each and in order, and a call fails only when no path could be
connected, or when the send on a new connection to the first reachable path
failed. -/
theorem accepted_deliverAll (os : Os) (world : World) (calls : List Call) :
    (deliverAll os world calls).2.map Delivery.call = calls ∧
      (deliverAll os world calls).1.trace =
        world.trace ++ (deliverAll os world calls).2.flatMap Delivery.events ∧
      accepted (deliverAll os world calls).1.trace =
        accepted world.trace ++ confirmed world.sink (deliverAll os world calls).2 ∧
      ∀ delivery ∈ (deliverAll os world calls).2,
        delivery.succeeded = false → delivery.Excused world.sink := by
  induction calls generalizing world with
  | nil => simp [deliverAll, confirmed]
  | cons call calls inductionHypothesis =>
      obtain ⟨events, socket, outcome, reached⟩ := deliver_cases os call world
      obtain ⟨same, traced, whole, excused⟩ := inductionHypothesis (world.after socket events)
      rw [← reached] at same traced whole excused
      have own : (deliver os call world).1.trace.drop world.trace.length = events := by
        rw [reached]
        exact List.drop_left
      have unfolded : deliverAll os world (call :: calls) =
          ((deliverAll os (deliver os call world).1 calls).1,
            ⟨call, events, (deliver os call world).2⟩ ::
              (deliverAll os (deliver os call world).1 calls).2) := by
        rw [← own]
        rfl
      rw [unfolded]
      have config : ∀ deliveries, confirmed (deliver os call world).1.sink deliveries =
          confirmed world.sink deliveries := by
        intro deliveries
        rw [reached]
        rfl
      rw [config] at whole
      have before : (deliver os call world).1.trace = world.trace ++ events := by
        rw [reached]
        rfl
      rw [before] at traced whole
      refine ⟨congrArg (call :: ·) same, ?_, ?_, ?_⟩
      · rw [traced, List.append_assoc]
        rfl
      · rw [whole, accepted_append, List.append_assoc, outcome.confirmed_cons]
      · rw [List.forall_mem_cons]
        refine ⟨outcome.excused, ?_⟩
        intro delivery member failed
        have later := excused delivery member failed
        rw [reached] at later
        exact later

end XosLog.Syslog
