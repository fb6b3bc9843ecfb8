import XosLog.Format

/-!
# The writer thread

A sink is a boxed trait object.  All that the writer can see of it is how each
of its calls ends, so its hidden state is kept as the history of the calls it
received, and its behaviour as a function from the history up to and including
a call to the outcome of that call.

Standard error is a trace of writes, each tagged with the position of the slot
it was made for.
-/

namespace XosLog.Writer

/-- How a call of a sink ends. -/
inductive Outcome
  | ok
  | err
  | panic
  deriving DecidableEq, Repr

/-- A call of a sink by the writer thread. -/
inductive SinkCall
  | writeEntry (entry : LogEntry) (formatted : Bytes)
  | flush
  deriving DecidableEq

/-- A `Box<dyn Sink>`. -/
structure Sink where
  /-- The outcome of the last call of a history. -/
  behave : List SinkCall → Outcome
  calls : List SinkCall

namespace Sink

/-- The sink after one more call. -/
def after (sink : Sink) (call : SinkCall) : Sink :=
  { sink with calls := sink.calls ++ [call] }

/-- How the sink would end one more call. -/
def outcome (sink : Sink) (call : SinkCall) : Outcome :=
  sink.behave (sink.calls ++ [call])

@[simp]
theorem after_calls (sink : Sink) (call : SinkCall) :
    (sink.after call).calls = sink.calls ++ [call] :=
  rfl

@[simp]
theorem after_behave (sink : Sink) (call : SinkCall) : (sink.after call).behave = sink.behave :=
  rfl

end Sink

/-- A configured sink together with its level floor and failure state. -/
structure SinkSlot where
  sink : Sink
  minLevel : Level
  consecutiveErrors : Nat
  degraded : Bool

namespace SinkSlot

/-- Wrap a sink with a level floor and fresh failure state. -/
def new (sink : Sink) (minLevel : Level) : SinkSlot :=
  { sink, minLevel, consecutiveErrors := 0, degraded := false }

end SinkSlot

/-- Number of consecutive write failures tolerated before falling back to
standard error. -/
def maxConsecutiveWriteErrors : Nat := 8

/-- The notice written when a sink is given up. -/
def fallbackNotice : Bytes :=
  Text.utf8 "[xoslog] a sink failed, falling back to stderr\n".toList

/-- A message sent from callers to the writer thread.  `K` names the call that
sent it: for control messages that is the acknowledgement channel. -/
inductive Message (K : Type)
  | log (key : K) (entry : LogEntry)
  | flush (ack : K)
  | shutdown (ack : K)
  deriving DecidableEq

/-- One slot's turn with a record: the slot afterwards and what was written to
standard error on its behalf. -/
def serveSlot (entry : LogEntry) (buf : Bytes) (slot : SinkSlot) : SinkSlot × List Bytes :=
  if entry.level < slot.minLevel then (slot, [])
  else if slot.degraded then (slot, [buf])
  else
    let call := SinkCall.writeEntry entry buf
    let sink := slot.sink.after call
    match slot.sink.outcome call with
    | .ok => ({ slot with sink, consecutiveErrors := 0 }, [])
    | _ =>
        let consecutiveErrors := slot.consecutiveErrors + 1
        if maxConsecutiveWriteErrors ≤ consecutiveErrors then
          ({ slot with sink, consecutiveErrors, degraded := true }, [fallbackNotice])
        else ({ slot with sink, consecutiveErrors }, [])

/-- The loop over the slots for one record, from slot number `position` on. -/
def serveSlots (entry : LogEntry) (buf : Bytes) :
    Nat → List SinkSlot → List SinkSlot × List (Nat × Bytes)
  | _, [] => ([], [])
  | position, slot :: rest =>
      let (slot, written) := serveSlot entry buf slot
      let (rest, writtenLater) := serveSlots entry buf (position + 1) rest
      (slot :: rest, written.map (fun bytes => (position, bytes)) ++ writtenLater)

/-- The loop that flushes the sinks.  A panic leaves the loop; the second
component says whether that happened. -/
def flushSlots : List SinkSlot → List SinkSlot × Bool
  | [] => ([], false)
  | slot :: rest =>
      let flushed := { slot with sink := slot.sink.after .flush }
      match slot.sink.outcome .flush with
      | .panic => (flushed :: rest, true)
      | _ =>
          let (rest, panicked) := flushSlots rest
          (flushed :: rest, panicked)

/-- What handling one message did. -/
structure Handled (K : Type) where
  slots : List SinkSlot
  stderr : List (Nat × Bytes)
  /-- The acknowledgement that was sent. -/
  acked : Option K
  /-- The returned flag; `none` when a panic escaped. -/
  stop : Option Bool

/-- Handle one message, writing a record to every eligible sink. -/
def handleMessage {K : Type} (format : Format) (msg : Message K) (slots : List SinkSlot) :
    Handled K :=
  match msg with
  | .log _ entry =>
      let (slots, stderr) := serveSlots entry (format.record entry) 0 slots
      { slots, stderr, acked := none, stop := some false }
  | .flush ack =>
      match flushSlots slots with
      | (slots, true) => { slots, stderr := [], acked := none, stop := none }
      | (slots, false) => { slots, stderr := [], acked := some ack, stop := some false }
  | .shutdown ack =>
      match flushSlots slots with
      | (slots, true) => { slots, stderr := [], acked := none, stop := none }
      | (slots, false) => { slots, stderr := [], acked := some ack, stop := some true }

/-- Degrade a slot after a panic escaped message handling. -/
def degrade (slot : SinkSlot) : SinkSlot :=
  { slot with degraded := true }

/-- One turn of the writer's loop with a received message: the handling under
`catch_unwind`, and the flag that stops the loop. -/
def turn {K : Type} (format : Format) (msg : Message K) (slots : List SinkSlot) :
    Handled K × Bool :=
  let handled := handleMessage format msg slots
  match handled.stop with
  | some stop => (handled, stop)
  | none => ({ handled with slots := handled.slots.map degrade }, false)

theorem turn_log {K : Type} (format : Format) (key : K) (entry : LogEntry)
    (slots : List SinkSlot) :
    turn format (.log key entry) slots =
      ({ slots := (serveSlots entry (format.record entry) 0 slots).1,
         stderr := (serveSlots entry (format.record entry) 0 slots).2,
         acked := none, stop := some false }, false) :=
  rfl

theorem turn_flush_calm {K : Type} (format : Format) (ack : K) {slots : List SinkSlot}
    (calm : (flushSlots slots).2 = false) :
    turn format (.flush ack) slots =
      ({ slots := (flushSlots slots).1, stderr := [], acked := some ack, stop := some false },
        false) := by
  rw [turn, handleMessage]
  generalize flushSlots slots = flushed at calm ⊢
  obtain ⟨after, panicked⟩ := flushed
  cases calm
  rfl

theorem turn_shutdown_calm {K : Type} (format : Format) (ack : K) {slots : List SinkSlot}
    (calm : (flushSlots slots).2 = false) :
    turn format (.shutdown ack) slots =
      ({ slots := (flushSlots slots).1, stderr := [], acked := some ack, stop := some true },
        true) := by
  rw [turn, handleMessage]
  generalize flushSlots slots = flushed at calm ⊢
  obtain ⟨after, panicked⟩ := flushed
  cases calm
  rfl

/-- A flush that panics escapes from either control message: nothing is
acknowledged, every slot is degraded, and the loop goes on. -/
theorem turn_control_panic {K : Type} (format : Format) (ack : K) {slots : List SinkSlot}
    (panicked : (flushSlots slots).2 = true) {msg : Message K}
    (control : msg = .flush ack ∨ msg = .shutdown ack) :
    turn format msg slots =
      ({ slots := (flushSlots slots).1.map degrade, stderr := [], acked := none, stop := none },
        false) := by
  rcases control with rfl | rfl <;> rw [turn, handleMessage] <;>
    generalize flushSlots slots = flushed at panicked ⊢ <;>
    obtain ⟨after, _⟩ := flushed <;> cases panicked <;> rfl

/-- Receive the messages one after another, until one stops the loop: the
slots, and the trace of standard error. -/
def receive {K : Type} (format : Format) :
    List (Message K) → List SinkSlot → List SinkSlot × List (Nat × Bytes)
  | [], slots => (slots, [])
  | msg :: rest, slots =>
      match turn format msg slots with
      | (handled, true) => (handled.slots, handled.stderr)
      | (handled, false) =>
          let (slots, stderr) := receive format rest handled.slots
          (slots, handled.stderr ++ stderr)

/-- The writer thread: the loop over the messages of a channel whose senders are
gone afterwards, then the last flush of every sink. -/
def writerLoop {K : Type} (format : Format) (msgs : List (Message K)) (slots : List SinkSlot) :
    List SinkSlot × List (Nat × Bytes) :=
  let (slots, stderr) := receive format msgs slots
  ((flushSlots slots).1, stderr)

end XosLog.Writer
