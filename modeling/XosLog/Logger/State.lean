import XosLog.Context
import XosLog.Filter
import XosLog.Transition.Run
import XosLog.Writer.Loop

/-!
# The logger as a transition system

Callers share one sender behind a mutex; the writer thread owns the receiver.
Each action is one atomic step of a caller or of the writer: an atomic load or
store, a lock, a send, a receive, a wait that is over, or the handling of one
message.  A step that would block is not enabled.

A bounded channel is a queue with a capacity.  With capacity zero a send is
accepted only while the receiver waits.  A send fails once the receiver is gone,
and dropping the receiver discards what is still queued.
-/

namespace XosLog.Logger

open Writer (Message SinkSlot)

/-- Strategy applied when the internal bounded queue is full. -/
inductive Backpressure
  | block
  | dropNewest
  deriving DecidableEq, Repr

/-- What a logger is built with. -/
structure Setup where
  capacity : Nat
  backpressure : Backpressure
  level : Level
  filter : Filter.TargetFilter
  timeOffsetSeconds : Int
  format : Format
  slots : List SinkSlot

namespace Setup

/-- Whether records at a level from a module target will be recorded. -/
def isEnabledFor (setup : Setup) (level : Level) (target : Text) : Bool :=
  setup.filter.enabled target level setup.level

/-- The record that `log` sends: stamped with the clock's reading and merged with
the calling thread's context. -/
def stamp (setup : Setup) (entry : LogEntry) (clock : Int) (stack : List Context.Frame) :
    LogEntry :=
  let entry := { entry with timestamp := Timestamp.now clock setup.timeOffsetSeconds }
  entry.mergeContext (Context.currentContext stack)

/-- What `emergency_write` writes to standard error. -/
def emergencyBytes (setup : Setup) (record : LogEntry) : Bytes :=
  Text.utf8 "[xoslog] writer thread unavailable, logging synchronously\n".toList ++
    { setup.format with includeLocation := false }.record record

end Setup

/-- The name of a call: its caller, and the number of calls it made before. -/
structure CallId (n : Nat) where
  caller : Fin n
  seq : Nat
  deriving DecidableEq, Repr

/-- The calls that send a control message. -/
inductive Control
  | flush
  | shutdown
  deriving DecidableEq, Repr

/-- The control message with its acknowledgement channel. -/
def Control.message {K : Type} : Control → K → Message K
  | flush, ack => .flush ack
  | shutdown, ack => .shutdown ack

/-- How many handles the call consumes. -/
def Control.consumed : Control → Nat
  | flush => 0
  | shutdown => 1

/-- A call of the public interface, with what it reads from its thread: the record,
the wall clock and the context stack. -/
inductive Op
  | log (entry : LogEntry) (clock : Int) (stack : List Context.Frame)
  | control (control : Control)
  deriving DecidableEq

/-- Where a caller is. -/
inductive CallerPc
  | idle
  /-- `log`, about to load the closed flag. -/
  | logLoad (entry : LogEntry) (clock : Int) (stack : List Context.Frame)
  /-- `log`, about to lock the sender. -/
  | logLock (record : LogEntry)
  /-- `log`, about to send, with the sender locked. -/
  | logSend (record : LogEntry)
  /-- `log`, about to count a record that found the queue full. -/
  | logFull (record : LogEntry)
  /-- `log`, about to write a record that found the receiver gone. -/
  | logOrphan (record : LogEntry)
  /-- `shutdown`, about to store the closed flag. -/
  | shutStore
  /-- `send_ctrl`, about to lock the sender. -/
  | ctrlLock (control : Control)
  /-- `send_ctrl`, about to send, with the sender locked. -/
  | ctrlSend (control : Control)
  /-- Waiting for the acknowledgement. -/
  | ctrlWait (control : Control)
  /-- `shutdown`, about to lock and take the join handle. -/
  | shutHandle
  /-- `shutdown`, joining the writer thread with the handle locked. -/
  | shutJoin
  deriving DecidableEq

/-- A thread that calls the logger. -/
structure Caller where
  pc : CallerPc
  /-- The `Logger` clones it owns. -/
  handles : Nat
  /-- The number of calls that have returned. -/
  calls : Nat
  deriving DecidableEq

/-- Where the writer thread is. -/
inductive WriterPc (n : Nat)
  /-- About to receive, or waiting for a message. -/
  | recv (waiting : Bool)
  | handling (msg : Message (CallId n))
  /-- Out of the loop, about to flush and to drop the receiver. -/
  | final
  | exited
  deriving DecidableEq

/-- The state of an acknowledgement channel, as its receiver sees it. -/
inductive Ack
  | live
  | sent
  | dropped
  deriving DecidableEq, Repr

/-- What has happened to the records so far, as lists of `log` calls. -/
structure History (n : Nat) where
  /-- The calls that found the closed flag unset and passed the filter. -/
  admitted : List (CallId n)
  /-- Those of them that have returned. -/
  completed : List (CallId n)
  enqueued : List (CallId n)
  taken : List (CallId n)
  handled : List (CallId n)
  /-- Counted in `dropped`. -/
  refused : List (CallId n)
  /-- Written by `emergency_write`. -/
  emergency : List (CallId n)
  /-- Queued when the receiver was dropped. -/
  discarded : List (CallId n)
  deriving DecidableEq

/-- A state of the system with `n` callers. -/
structure State (n : Nat) where
  callers : Fin n → Caller
  queue : List (Message (CallId n))
  /-- The caller that has locked the sender. -/
  txLock : Option (Fin n)
  /-- The caller that has locked the join handle. -/
  handleLock : Option (Fin n)
  /-- The join handle has not been taken. -/
  joinHandle : Bool
  closed : Bool
  dropped : Nat
  acks : CallId n → Ack
  writer : WriterPc n
  slots : List SinkSlot
  stderr : List Bytes
  history : History n

/-- The name of the log call that a message comes from. -/
def logKey {K : Type} : Message K → Option K
  | .log key _ => some key
  | _ => none

/-- The name of the control call that a message comes from. -/
def ctrlKey {K : Type} : Message K → Option K
  | .log _ _ => none
  | .flush ack => some ack
  | .shutdown ack => some ack

/-- The log calls of a sequence of messages. -/
def logKeys {K : Type} (msgs : List (Message K)) : List K :=
  msgs.filterMap logKey

/-- The acknowledgement channels after a message has been handled: its sender is
dropped unless it was used. -/
def resolve {n : Nat} (acks : CallId n → Ack) (msg : Message (CallId n))
    (acked : Option (CallId n)) : CallId n → Ack :=
  match ctrlKey msg with
  | none => acks
  | some ack => Function.update acks ack (if acked = some ack then .sent else .dropped)

/-- The acknowledgement channels after the queued messages have been dropped. -/
def abandon {n : Nat} (acks : CallId n → Ack) (msgs : List (Message (CallId n))) :
    CallId n → Ack :=
  fun id => if id ∈ msgs.filterMap ctrlKey then .dropped else acks id

namespace State

variable {n : Nat}

/-- The state of a logger just built: one caller owns the only handle. -/
def init (setup : Setup) (owner : Fin n) : State n where
  callers c := { pc := .idle, handles := if c = owner then 1 else 0, calls := 0 }
  queue := []
  txLock := none
  handleLock := none
  joinHandle := true
  closed := false
  dropped := 0
  acks _ := .live
  writer := .recv false
  slots := setup.slots
  stderr := []
  history := ⟨[], [], [], [], [], [], [], []⟩

/-- The name of a caller's current call. -/
abbrev id (s : State n) (c : Fin n) : CallId n :=
  ⟨c, (s.callers c).calls⟩

/-- Every clone of the logger is gone, and with it the sender. -/
def Disconnected (s : State n) : Prop :=
  ∀ c, (s.callers c).handles = 0

instance (s : State n) : Decidable s.Disconnected :=
  inferInstanceAs (Decidable (∀ c, (s.callers c).handles = 0))

/-- The channel accepts a message. -/
def Accepts (setup : Setup) (s : State n) : Prop :=
  s.queue.length < setup.capacity ∨
    (setup.capacity = 0 ∧ s.queue = [] ∧ s.writer = .recv true)

instance (setup : Setup) (s : State n) : Decidable (s.Accepts setup) :=
  inferInstanceAs (Decidable (_ ∨ _))

/-- The caller proceeds to another point of its call. -/
abbrev goto (s : State n) (c : Fin n) (pc : CallerPc) : State n :=
  { s with callers := Function.update s.callers c { s.callers c with pc } }

/-- The caller's call returns. -/
abbrev returns (s : State n) (c : Fin n) : State n :=
  { s with
    callers := Function.update s.callers c
      { s.callers c with pc := .idle, calls := (s.callers c).calls + 1 } }

/-- The caller's control call returns. -/
abbrev controlReturns (s : State n) (c : Fin n) (control : Control) : State n :=
  { s with
    callers := Function.update s.callers c
      { pc := .idle, handles := (s.callers c).handles - control.consumed,
        calls := (s.callers c).calls + 1 } }

/-- The number of handles a caller owns changes. -/
abbrev setHandles (s : State n) (c : Fin n) (handles : Nat) : State n :=
  { s with callers := Function.update s.callers c { s.callers c with handles } }

/-- A `log` call has passed the closed flag and the filter. -/
abbrev admitLog (s : State n) (c : Fin n) (record : LogEntry) : State n :=
  { s.goto c (.logLock record) with
    history := { s.history with admitted := s.history.admitted ++ [s.id c] } }

/-- A `log` call has sent its record, and returns. -/
abbrev sendLog (s : State n) (c : Fin n) (record : LogEntry) : State n :=
  { s.returns c with
    queue := s.queue ++ [.log (s.id c) record]
    txLock := none
    history := { s.history with
      completed := s.history.completed ++ [s.id c]
      enqueued := s.history.enqueued ++ [s.id c] } }

/-- A `log` call counts its record as dropped, and returns. -/
abbrev refuseLog (s : State n) (c : Fin n) : State n :=
  { s.returns c with
    txLock := none
    dropped := s.dropped + 1
    history := { s.history with
      completed := s.history.completed ++ [s.id c]
      refused := s.history.refused ++ [s.id c] } }

/-- A `log` call writes its record to standard error, and returns. -/
abbrev emergencyWrite (setup : Setup) (s : State n) (c : Fin n) (record : LogEntry) : State n :=
  { s.returns c with
    txLock := none
    stderr := s.stderr ++ [setup.emergencyBytes record]
    history := { s.history with
      completed := s.history.completed ++ [s.id c]
      emergency := s.history.emergency ++ [s.id c] } }

/-- A control call has sent its message. -/
abbrev sendControl (s : State n) (c : Fin n) (control : Control) : State n :=
  { s.goto c (.ctrlWait control) with
    queue := s.queue ++ [control.message (s.id c)]
    txLock := none }

/-- The writer proceeds to another point of its loop. -/
abbrev proceed (s : State n) (writer : WriterPc n) : State n :=
  { s with writer }

/-- The writer takes a message off the queue. -/
abbrev take (s : State n) (msg : Message (CallId n)) (rest : List (Message (CallId n))) : State n :=
  { s with
    queue := rest
    writer := .handling msg
    history := { s.history with taken := s.history.taken ++ (logKey msg).toList } }

/-- The writer has handled a message. -/
abbrev handle (setup : Setup) (s : State n) (msg : Message (CallId n)) : State n :=
  { s with
    slots := (Writer.turn setup.format msg s.slots).1.slots
    stderr := s.stderr ++ (Writer.turn setup.format msg s.slots).1.stderr.map Prod.snd
    acks := resolve s.acks msg (Writer.turn setup.format msg s.slots).1.acked
    writer := if (Writer.turn setup.format msg s.slots).2 then .final else .recv false
    history := { s.history with handled := s.history.handled ++ (logKey msg).toList } }

/-- The writer flushes its sinks for the last time and drops the receiver. -/
abbrev exit (s : State n) : State n :=
  { s with
    slots := (Writer.flushSlots s.slots).1
    queue := []
    acks := abandon s.acks s.queue
    writer := .exited
    history := { s.history with discarded := s.history.discarded ++ logKeys s.queue } }

end State

variable {n : Nat}

/-- One step of a caller inside a call. -/
def callerStep (setup : Setup) (s : State n) (c : Fin n) : Option (State n) :=
  match (s.callers c).pc with
  | .idle => none
  | .logLoad entry clock stack =>
      if s.closed then some (s.returns c)
      else if setup.isEnabledFor entry.level entry.target then
        some (s.admitLog c (setup.stamp entry clock stack))
      else some (s.returns c)
  | .logLock record =>
      if s.txLock = none then some { s.goto c (.logSend record) with txLock := some c }
      else none
  | .logSend record =>
      if s.writer = .exited then some (s.goto c (.logOrphan record))
      else if s.Accepts setup then some (s.sendLog c record)
      else
        match setup.backpressure with
        | .block => none
        | .dropNewest => some (s.goto c (.logFull record))
  | .logFull _ => some (s.refuseLog c)
  | .logOrphan record => some (s.emergencyWrite setup c record)
  | .shutStore => some { s.goto c (.ctrlLock .shutdown) with closed := true }
  | .ctrlLock control =>
      if s.txLock = none then some { s.goto c (.ctrlSend control) with txLock := some c }
      else none
  | .ctrlSend control =>
      if s.writer = .exited then some { s.controlReturns c control with txLock := none }
      else if s.Accepts setup then some (s.sendControl c control)
      else none
  | .ctrlWait control =>
      if s.acks (s.id c) = .live then none
      else
        match control with
        | .flush => some (s.controlReturns c .flush)
        | .shutdown => some (s.goto c .shutHandle)
  | .shutHandle =>
      if s.handleLock = none then
        if s.joinHandle then
          some { s.goto c .shutJoin with handleLock := some c, joinHandle := false }
        else some (s.controlReturns c .shutdown)
      else none
  | .shutJoin =>
      if s.writer = .exited then some { s.controlReturns c .shutdown with handleLock := none }
      else none

/-- One step of the writer thread. -/
def writerStep (setup : Setup) (s : State n) : Option (State n) :=
  match s.writer with
  | .recv waiting =>
      match s.queue with
      | msg :: rest => some (s.take msg rest)
      | [] =>
          if s.Disconnected then some (s.proceed .final)
          else if waiting then none
          else some (s.proceed (.recv true))
  | .handling msg => some (s.handle setup msg)
  | .final => some s.exit
  | .exited => none

/-- The first point of a call. -/
def Op.start : Op → CallerPc
  | .log entry clock stack => .logLoad entry clock stack
  | .control .flush => .ctrlLock .flush
  | .control .shutdown => .shutStore

/-- The actions of the system: a caller begins a call, clones its handle for a
caller, drops a handle or takes a step of its call, or the writer takes a step. -/
inductive Action (n : Nat)
  | call (c : Fin n) (op : Op)
  | clone (c target : Fin n)
  | drop (c : Fin n)
  | caller (c : Fin n)
  | writer
  deriving DecidableEq

/-- The transition function. -/
def step (setup : Setup) : Transition.Step (State n) (Action n)
  | s, .call c op =>
      if (s.callers c).pc = .idle ∧ 0 < (s.callers c).handles then some (s.goto c op.start)
      else none
  | s, .clone c target =>
      if (s.callers c).pc = .idle ∧ 0 < (s.callers c).handles then
        some (s.setHandles target ((s.callers target).handles + 1))
      else none
  | s, .drop c =>
      if (s.callers c).pc = .idle ∧ 0 < (s.callers c).handles then
        some (s.setHandles c ((s.callers c).handles - 1))
      else none
  | s, .caller c => callerStep setup s c
  | s, .writer => writerStep setup s

/-- The action is the beginning of a `shutdown` call. -/
def Action.BeginsShutdown : Action n → Prop
  | .call _ (.control .shutdown) => True
  | _ => False

end XosLog.Logger
