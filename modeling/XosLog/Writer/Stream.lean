import XosLog.Writer.Device

/-!
# Standard output and standard error as sinks

A record is written to the stream and the stream is flushed; either may fail, and a
write that fails has written any number of bytes first.
-/

namespace XosLog.Writer

/-- Whether the operations on the stream in one call succeed. -/
structure StreamVerdicts where
  /-- `some count` when `write_all` fails after that many bytes. -/
  write : Option Nat
  flush : Bool

/-- What a call of the writer does to a stream, given what has been written to it. -/
def callStream (verdicts : StreamVerdicts) (call : SinkCall) (out : Bytes) : Bytes × Outcome :=
  match call with
  | .writeEntry _ formatted =>
      match verdicts.write with
      | none => (out ++ formatted, if verdicts.flush then .ok else .err)
      | some count => (out ++ formatted.take count, .err)
  | .flush => (out, if verdicts.flush then .ok else .err)

/-- Streams with the verdicts of their calls. -/
def streamDevice (verdicts : Nat → StreamVerdicts) : Device Bytes where
  call k := callStream (verdicts k)

/-- `StdoutSink`, boxed. -/
def stdoutSink (verdicts : Nat → StreamVerdicts) : Sink :=
  (streamDevice verdicts).boxed []

/-- `StderrSink`, boxed. -/
def stderrSink (verdicts : Nat → StreamVerdicts) : Sink :=
  (streamDevice verdicts).boxed []

/-- What a call has left of its record on the stream. -/
def StreamedAs (answer : (LogEntry × Bytes) × Outcome) (chunk : Bytes) : Prop :=
  chunk <+: answer.1.2 ∧ (answer.2 = .ok → chunk = answer.1.2)

/-- The stream holds a chunk of every record, in order, and the whole of those whose
calls succeeded. -/
theorem streamed_replay {verdicts : Nat → StreamVerdicts} {sink : Sink}
    (isBoxed : sink.behave = ((streamDevice verdicts).boxed []).behave) :
    ∃ chunks, List.Forall₂ StreamedAs sink.answers chunks ∧
      (streamDevice verdicts).replay [] sink.calls = chunks.flatten := by
  refine @Device.exists_left _ _ _ _ StreamedAs (fun chunks out => out = chunks.flatten) rfl ?_ ?_
    sink isBoxed
  · exact fun _ _ _ holds => holds
  · rintro k entry formatted chunks _ rfl
    change ∃ chunk, StreamedAs (_, (callStream (verdicts k) _ _).2) chunk ∧
      (callStream (verdicts k) _ _).1 = _
    rw [callStream]
    cases (verdicts k).write with
    | none =>
        refine ⟨formatted, ⟨List.prefix_rfl, fun _ => rfl⟩, ?_⟩
        rw [List.flatten_concat]
    | some count =>
        refine ⟨formatted.take count, ⟨List.take_prefix _ _, nofun⟩, ?_⟩
        rw [List.flatten_concat]

end XosLog.Writer
