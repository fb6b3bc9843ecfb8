import XosLog.Writer.Independence

/-!
# The answers of a sink

A sink has been called with records and flushes, and has ended each call in some way.
The calls at the end that have failed are its failing streak.
-/

namespace XosLog.Writer

/-- A call that counts against its sink. -/
def Outcome.failed (outcome : Outcome) : Bool :=
  outcome != .ok

/-- Length of the failing streak at the end of a sequence of outcomes. -/
def streak (outcomes : List Outcome) : Nat :=
  (outcomes.rtakeWhile Outcome.failed).length

@[simp]
theorem streak_nil : streak [] = 0 :=
  rfl

theorem streak_concat_ok (outcomes : List Outcome) : streak (outcomes ++ [.ok]) = 0 := by
  rw [streak, List.rtakeWhile_concat_neg _ _ _ (by decide)]
  rfl

theorem streak_concat_failed (outcomes : List Outcome) {outcome : Outcome}
    (failed : outcome.failed = true) :
    streak (outcomes ++ [outcome]) = streak outcomes + 1 := by
  rw [streak, List.rtakeWhile_concat_pos _ _ _ failed, List.length_append]
  rfl

namespace Sink

/-- The outcomes of the calls a sink has received. -/
def outcomes (sink : Sink) : List Outcome :=
  (List.range sink.calls.length).map fun k => sink.behave (sink.calls.take (k + 1))

@[simp]
theorem length_outcomes (sink : Sink) : sink.outcomes.length = sink.calls.length := by
  simp [outcomes]

theorem outcomes_after (sink : Sink) (call : SinkCall) :
    (sink.after call).outcomes = sink.outcomes ++ [sink.outcome call] := by
  have earlier : ∀ k ∈ List.range sink.calls.length,
      sink.behave ((sink.calls ++ [call]).take (k + 1)) =
        sink.behave (sink.calls.take (k + 1)) := by
    intro k member
    rw [List.take_append_of_le_length (List.mem_range.mp member)]
  have last : (sink.calls ++ [call]).take (sink.calls.length + 1) = sink.calls ++ [call] :=
    List.take_of_length_le (by simp)
  simp only [outcomes, after_calls, after_behave, List.length_append, List.length_singleton,
    List.range_succ, List.map_append, List.map_cons, List.map_nil, last, outcome]
  rw [List.map_congr_left earlier]

end Sink

/-! ## The records -/

/-- The record of a call, as it was formatted. -/
def SinkCall.record : SinkCall → Option (LogEntry × Bytes)
  | .writeEntry entry formatted => some (entry, formatted)
  | .flush => none

/-- The records that a sink has been called with, and how these calls ended. -/
def Sink.answers (sink : Sink) : List ((LogEntry × Bytes) × Outcome) :=
  (sink.calls.zip sink.outcomes).filterMap fun answer =>
    answer.1.record.map fun record => (record, answer.2)

theorem Sink.answers_after (sink : Sink) (call : SinkCall) :
    (sink.after call).answers =
      sink.answers ++ (call.record.map fun record => (record, sink.outcome call)).toList := by
  have zipped : (sink.after call).calls.zip (sink.after call).outcomes =
      sink.calls.zip sink.outcomes ++ [(call, sink.outcome call)] := by
    rw [after_calls, outcomes_after, List.zip_append sink.length_outcomes.symm]
    rfl
  rw [answers, zipped, List.filterMap_append, ← answers]
  cases call <;> rfl

@[simp]
theorem Sink.answers_flush (sink : Sink) : (sink.after .flush).answers = sink.answers := by
  rw [answers_after]
  exact List.append_nil _

@[simp]
theorem Sink.answers_writeEntry (sink : Sink) (entry : LogEntry) (formatted : Bytes) :
    (sink.after (.writeEntry entry formatted)).answers =
      sink.answers ++ [((entry, formatted), sink.outcome (.writeEntry entry formatted))] :=
  sink.answers_after _

/-- Calls none of which is a flush are their records, and so are their outcomes. -/
theorem zip_records {calls : List SinkCall} {outcomes : List Outcome}
    (unflushed : .flush ∉ calls) (length : outcomes.length = calls.length) :
    calls = (((calls.zip outcomes).filterMap fun answer =>
        answer.1.record.map fun record => (record, answer.2)).map
          fun answer => .writeEntry answer.1.1 answer.1.2) ∧
      outcomes = ((calls.zip outcomes).filterMap fun answer =>
        answer.1.record.map fun record => (record, answer.2)).map Prod.snd := by
  induction calls generalizing outcomes with
  | nil =>
      rw [List.eq_nil_of_length_eq_zero length]
      exact ⟨rfl, rfl⟩
  | cons call calls inductionHypothesis =>
      obtain ⟨outcome, outcomes, rfl⟩ := List.exists_cons_of_length_eq_add_one length
      cases call with
      | flush => exact absurd List.mem_cons_self unflushed
      | writeEntry entry formatted =>
          obtain ⟨sameCalls, sameOutcomes⟩ := inductionHypothesis
            (fun member => unflushed (List.mem_cons_of_mem _ member)) (Nat.succ.inj length)
          exact ⟨congrArg (List.cons _) sameCalls, congrArg (List.cons _) sameOutcomes⟩

/-- A sink that has not been flushed has only answered for records. -/
theorem Sink.answers_of_unflushed {sink : Sink} (unflushed : .flush ∉ sink.calls) :
    sink.calls = (sink.answers.map fun answer => .writeEntry answer.1.1 answer.1.2) ∧
      sink.outcomes = sink.answers.map Prod.snd :=
  zip_records unflushed sink.length_outcomes

end XosLog.Writer
