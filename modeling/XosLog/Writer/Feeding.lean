import XosLog.Writer.Answers

/-!
# What a slot is fed

Along the turns of the writer's loop a slot is called with the records at or above its
floor, in order, and is flushed in between.  A flush counts neither for nor against
its sink.  The slot degrades when eight records in a row have failed, or when a panic
escapes from some flush, and from then on its records go to standard error.
-/

namespace XosLog.Writer

/-- What a fresh slot has become after turns with some records: `served` are the ones
its sink was called with, and how these calls ended, `diverted` are the later ones, and
`written` is all that was written to standard error for the slot. -/
structure Fed (format : Format) (behave : List SinkCall → Outcome) (minLevel : Level)
    (panics : Prop) (entries : List LogEntry) (served : List (LogEntry × Outcome))
    (diverted : List LogEntry) (slot : SinkSlot) (written : List Bytes) : Prop where
  behave_eq : slot.sink.behave = behave
  minLevel_eq : slot.minLevel = minLevel
  eligible : entries.filter (fun entry => minLevel ≤ entry.level) =
    served.map Prod.fst ++ diverted
  answers_eq : slot.sink.answers =
    served.map fun record => ((record.1, format.record record.1), record.2)
  consecutiveErrors_eq : slot.consecutiveErrors = streak (served.map Prod.snd)
  /-- The call that completes a streak of eight is the last one. -/
  streak_lt : ∀ k < served.length,
    streak ((served.map Prod.snd).take k) < maxConsecutiveWriteErrors
  degraded_of_streak : maxConsecutiveWriteErrors ≤ streak (served.map Prod.snd) →
    slot.degraded = true
  reason_of_degraded : slot.degraded = true →
    maxConsecutiveWriteErrors ≤ streak (served.map Prod.snd) ∨ panics
  degraded_of_diverted : diverted ≠ [] → slot.degraded = true
  written_eq : written =
    (if maxConsecutiveWriteErrors ≤ streak (served.map Prod.snd) then [fallbackNotice] else []) ++
      diverted.map format.record

theorem Fed.fresh (format : Format) (sink : Sink) (unused : sink.calls = []) (minLevel : Level)
    (panics : Prop) :
    Fed format sink.behave minLevel panics [] [] [] (.new sink minLevel) [] where
  behave_eq := rfl
  minLevel_eq := rfl
  eligible := rfl
  answers_eq := by
    rw [SinkSlot.new, Sink.answers, unused]
    rfl
  consecutiveErrors_eq := rfl
  streak_lt _ before := absurd before (Nat.not_lt_zero _)
  degraded_of_streak long := absurd long (by decide)
  reason_of_degraded degraded := absurd degraded Bool.false_ne_true
  degraded_of_diverted some := absurd rfl some
  written_eq := rfl

section

variable {format : Format} {behave : List SinkCall → Outcome} {minLevel : Level} {panics : Prop}
  {entries : List LogEntry} {served : List (LogEntry × Outcome)} {diverted : List LogEntry}
  {slot : SinkSlot} {written : List Bytes}

theorem Fed.flush
    (fed : Fed format behave minLevel panics entries served diverted slot written) :
    Fed format behave minLevel panics entries served diverted (flushSlot slot) written :=
  { fed with answers_eq := (slot.sink.answers_flush).trans fed.answers_eq }

theorem Fed.degrade (panicked : panics)
    (fed : Fed format behave minLevel panics entries served diverted slot written) :
    Fed format behave minLevel panics entries served diverted (degrade slot) written :=
  { fed with
    degraded_of_streak := fun _ => rfl
    reason_of_degraded := fun _ => .inr panicked
    degraded_of_diverted := fun _ => rfl }

theorem Fed.extended
    (fed : Fed format behave minLevel panics entries served diverted slot written)
    (entry : LogEntry) :
    (entries ++ [entry]).filter (fun entry => minLevel ≤ entry.level) =
      served.map Prod.fst ++ diverted ++ if minLevel ≤ entry.level then [entry] else [] := by
  rw [List.filter_append, fed.eligible]
  split <;> simp_all

/-- A record below the floor leaves the slot alone. -/
theorem Fed.below
    (fed : Fed format behave minLevel panics entries served diverted slot written)
    {entry : LogEntry} (below : entry.level < minLevel) :
    Fed format behave minLevel panics (entries ++ [entry]) served diverted slot written :=
  { fed with
    eligible := by
      rw [fed.extended, if_neg (not_le.mpr below), List.append_nil] }

/-- An eligible record of a degraded slot goes to standard error. -/
theorem Fed.divert
    (fed : Fed format behave minLevel panics entries served diverted slot written)
    {entry : LogEntry} (eligible : minLevel ≤ entry.level) (degraded : slot.degraded = true) :
    Fed format behave minLevel panics (entries ++ [entry]) served (diverted ++ [entry]) slot
      (written ++ [format.record entry]) :=
  { fed with
    eligible := by
      rw [fed.extended, if_pos eligible, List.append_assoc]
    degraded_of_diverted := fun _ => degraded
    written_eq := by
      rw [fed.written_eq, List.append_assoc, List.map_append]
      rfl }

/-- An eligible record of a healthy slot is given to its sink; the slot degrades
exactly when the call completes a streak of eight. -/
theorem Fed.serve
    (fed : Fed format behave minLevel panics entries served diverted slot written)
    {entry : LogEntry} (eligible : minLevel ≤ entry.level) (healthy : slot.degraded = false)
    {outcome : Outcome}
    (ended : slot.sink.outcome (.writeEntry entry (format.record entry)) = outcome)
    (next : SinkSlot)
    (called : next.sink = slot.sink.after (.writeEntry entry (format.record entry)))
    (floor : next.minLevel = slot.minLevel)
    (counted : next.consecutiveErrors = streak (served.map Prod.snd ++ [outcome]))
    (latched : next.degraded = true ↔
      maxConsecutiveWriteErrors ≤ streak (served.map Prod.snd ++ [outcome])) :
    Fed format behave minLevel panics (entries ++ [entry]) (served ++ [(entry, outcome)]) [] next
      (written ++ if next.degraded then [fallbackNotice] else []) := by
  have notDegraded : slot.degraded ≠ true := Bool.eq_false_iff.mp healthy
  have nothingDiverted : diverted = [] := by
    by_contra some
    exact notDegraded (fed.degraded_of_diverted some)
  have short : ¬ maxConsecutiveWriteErrors ≤ streak (served.map Prod.snd) :=
    fun long => notDegraded (fed.degraded_of_streak long)
  subst nothingDiverted
  have nothingWritten : written = [] := by
    rw [fed.written_eq, if_neg short]
    rfl
  have outcomes : (served ++ [(entry, outcome)]).map Prod.snd =
      served.map Prod.snd ++ [outcome] := List.map_append
  subst nothingWritten
  constructor
  · rw [called, Sink.after_behave, fed.behave_eq]
  · rw [floor, fed.minLevel_eq]
  · rw [fed.extended, if_pos eligible, List.map_append]
    simp
  · rw [called, Sink.answers_writeEntry, fed.answers_eq, ended, List.map_append]
    rfl
  · rw [outcomes, counted]
  · intro k before
    rw [List.length_append, List.length_singleton] at before
    have within : k ≤ (served.map Prod.snd).length := by
      rw [List.length_map]
      exact Nat.lt_succ_iff.mp before
    rw [outcomes, List.take_append_of_le_length within]
    rcases Nat.lt_or_eq_of_le within with earlier | whole
    · exact fed.streak_lt k (by rwa [List.length_map] at earlier)
    · rw [whole, List.take_length]
      exact Nat.lt_of_not_le short
  · rw [outcomes]
    exact latched.mpr
  · rw [outcomes]
    exact fun degraded => .inl (latched.mp degraded)
  · exact fun some => absurd rfl some
  · rw [outcomes, List.nil_append, List.map_nil, List.append_nil]
    exact ite_congr (propext latched) (fun _ => rfl) (fun _ => rfl)

/-- A turn with a record. -/
theorem Fed.record
    (fed : Fed format behave minLevel panics entries served diverted slot written)
    (entry : LogEntry) :
    ∃ served diverted, Fed format behave minLevel panics (entries ++ [entry]) served diverted
      (serveSlot entry (format.record entry) slot).1
      (written ++ (serveSlot entry (format.record entry) slot).2) := by
  unfold serveSlot
  by_cases below : entry.level < slot.minLevel
  · rw [if_pos below, List.append_nil]
    exact ⟨served, diverted, fed.below (fed.minLevel_eq ▸ below)⟩
  have eligible : minLevel ≤ entry.level := fed.minLevel_eq ▸ le_of_not_gt below
  rw [if_neg below]
  by_cases degraded : slot.degraded = true
  · rw [if_pos degraded]
    exact ⟨served, diverted ++ [entry], fed.divert eligible degraded⟩
  have healthy : slot.degraded = false := Bool.eq_false_iff.mpr degraded
  rw [if_neg degraded]
  refine ⟨served ++ [(entry, slot.sink.outcome (.writeEntry entry (format.record entry)))], [], ?_⟩
  by_cases ok : slot.sink.outcome (.writeEntry entry (format.record entry)) = .ok
  · have counted : 0 = streak (served.map Prod.snd ++ [.ok]) := by rw [streak_concat_ok]
    have next := fed.serve eligible healthy ok { slot with
      sink := slot.sink.after (.writeEntry entry (format.record entry)),
      consecutiveErrors := 0 } rfl rfl counted
      (iff_of_false degraded (counted ▸ (by decide : ¬ maxConsecutiveWriteErrors ≤ 0)))
    simp only [ok]
    simpa [healthy] using next
  · have failed : (slot.sink.outcome (.writeEntry entry (format.record entry))).failed = true :=
      bne_iff_ne.mpr ok
    have counted := streak_concat_failed (served.map Prod.snd) failed
    rw [← fed.consecutiveErrors_eq] at counted
    by_cases eighth : maxConsecutiveWriteErrors ≤ slot.consecutiveErrors + 1
    · have next := fed.serve eligible healthy rfl { slot with
        sink := slot.sink.after (.writeEntry entry (format.record entry)),
        consecutiveErrors := slot.consecutiveErrors + 1,
        degraded := true } rfl rfl counted.symm (iff_of_true rfl (counted ▸ eighth))
      simpa [ok, eighth] using next
    · have next := fed.serve eligible healthy rfl { slot with
        sink := slot.sink.after (.writeEntry entry (format.record entry)),
        consecutiveErrors := slot.consecutiveErrors + 1 } rfl rfl counted.symm
        (iff_of_false degraded (counted ▸ eighth))
      simpa [ok, eighth, healthy] using next

end

/-- What has become of the records of a slot: its sink has been called with the ones at
or above the floor, as they were formatted, and has answered; the later ones were
diverted to standard error, behind the notice if eight calls in a row had failed. -/
structure Divided (format : Format) (minLevel : Level) (panics : Prop)
    (entries : List LogEntry) (stderr : List Bytes)
    (answers : List ((LogEntry × Bytes) × Outcome)) (diverted : List LogEntry) : Prop where
  eligible : entries.filter (fun entry => minLevel ≤ entry.level) =
    answers.map (fun answer => answer.1.1) ++ diverted
  formatted : ∀ answer ∈ answers, answer.1.2 = format.record answer.1.1
  streak_lt : ∀ k < answers.length,
    streak ((answers.map Prod.snd).take k) < maxConsecutiveWriteErrors
  reason_of_diverted : diverted ≠ [] →
    maxConsecutiveWriteErrors ≤ streak (answers.map Prod.snd) ∨ panics
  spilt : ((if maxConsecutiveWriteErrors ≤ streak (answers.map Prod.snd) then [fallbackNotice]
    else []) ++ diverted.map format.record).Sublist stderr

theorem Fed.divided {format : Format} {behave : List SinkCall → Outcome} {minLevel : Level}
    {panics : Prop} {entries : List LogEntry} {served : List (LogEntry × Outcome)}
    {diverted : List LogEntry} {slot : SinkSlot} {written stderr : List Bytes}
    (fed : Fed format behave minLevel panics entries served diverted slot written)
    (within : written.Sublist stderr) :
    Divided format minLevel panics entries stderr slot.sink.answers diverted := by
  have outcomes : slot.sink.answers.map Prod.snd = served.map Prod.snd := by
    rw [fed.answers_eq, List.map_map]
    rfl
  constructor
  · rw [fed.eligible, fed.answers_eq, List.map_map]
    rfl
  · rw [fed.answers_eq]
    intro answer member
    obtain ⟨record, _, rfl⟩ := List.mem_map.mp member
    rfl
  · rw [outcomes, fed.answers_eq, List.length_map]
    exact fed.streak_lt
  · rw [outcomes]
    exact fun some => fed.reason_of_degraded (fed.degraded_of_diverted some)
  · rw [outcomes, ← fed.written_eq]
    exact within

end XosLog.Writer
