import XosLog.Writer.Feeding

/-!
# Fan-out and degradation

What one slot sees of a sequence of records: its sink is called on the records
at or above the level floor, in order, until eight calls in a row have failed;
from then on every eligible record goes to standard error instead.
-/

namespace XosLog.Writer

/-! ## One slot -/

/-- At some point so far, that many calls in a row had failed that the sink is
given up. -/
def GivenUp (outcomes : List Outcome) : Prop :=
  ∃ k ≤ outcomes.length, maxConsecutiveWriteErrors ≤ streak (outcomes.take k)

/-- One slot's turns with a sequence of records. -/
def serveAll (format : Format) (slot : SinkSlot) : List LogEntry → SinkSlot × List Bytes
  | [] => (slot, [])
  | entry :: entries =>
      let (next, written) := serveSlot entry (format.record entry) slot
      let (last, writtenLater) := serveAll format next entries
      (last, written ++ writtenLater)

theorem serveAll_concat (format : Format) (slot : SinkSlot) (entries : List LogEntry)
    (entry : LogEntry) :
    serveAll format slot (entries ++ [entry]) =
      ((serveSlot entry (format.record entry) (serveAll format slot entries).1).1,
        (serveAll format slot entries).2 ++
          (serveSlot entry (format.record entry) (serveAll format slot entries).1).2) := by
  induction entries generalizing slot with
  | nil => simp [serveAll]
  | cons first entries ih => simp [serveAll, ih]

/-- What a fresh slot has become after a sequence of records: `served` are the
records its sink was called with, `diverted` those written to standard error
instead, and `written` all that was written to standard error for the slot. -/
structure SlotHistory (format : Format) (behave : List SinkCall → Outcome) (minLevel : Level)
    (entries : List LogEntry) (slot : SinkSlot) (written : List Bytes)
    (served diverted : List LogEntry) : Prop where
  behave_eq : slot.sink.behave = behave
  minLevel_eq : slot.minLevel = minLevel
  /-- The records at or above the floor, in order, split into served and diverted. -/
  eligible : entries.filter (fun entry => minLevel ≤ entry.level) = served ++ diverted
  calls_eq : slot.sink.calls = served.map fun entry => .writeEntry entry (format.record entry)
  consecutiveErrors_eq : slot.consecutiveErrors = streak slot.sink.outcomes
  degraded_iff : slot.degraded = true ↔ GivenUp slot.sink.outcomes
  /-- The call that completes a streak of eight is the last one. -/
  streak_lt : ∀ k < slot.sink.outcomes.length,
    streak (slot.sink.outcomes.take k) < maxConsecutiveWriteErrors
  degraded_of_diverted : diverted ≠ [] → slot.degraded = true
  written_eq : written =
    if slot.degraded then fallbackNotice :: diverted.map format.record else []

/-- A slot that has been fed and neither flushed nor degraded by a panic has a history. -/
theorem Fed.slotHistory {format : Format} {behave : List SinkCall → Outcome} {minLevel : Level}
    {entries : List LogEntry} {served : List (LogEntry × Outcome)} {diverted : List LogEntry}
    {slot : SinkSlot} {written : List Bytes}
    (fed : Fed format behave minLevel False entries served diverted slot written)
    (unflushed : .flush ∉ slot.sink.calls) :
    SlotHistory format behave minLevel entries slot written (served.map Prod.fst) diverted := by
  obtain ⟨calls, outcomes⟩ := Sink.answers_of_unflushed unflushed
  rw [fed.answers_eq, List.map_map] at calls outcomes
  have same : slot.sink.outcomes = served.map Prod.snd := outcomes
  have long : slot.degraded = true ↔
      maxConsecutiveWriteErrors ≤ streak (served.map Prod.snd) :=
    ⟨fun degraded => (fed.reason_of_degraded degraded).resolve_right id, fed.degraded_of_streak⟩
  have streak_lt : ∀ k < slot.sink.outcomes.length,
      streak (slot.sink.outcomes.take k) < maxConsecutiveWriteErrors := by
    rw [same, List.length_map]
    exact fed.streak_lt
  constructor
  · exact fed.behave_eq
  · exact fed.minLevel_eq
  · exact fed.eligible
  · rw [calls, List.map_map]
    rfl
  · rw [same]
    exact fed.consecutiveErrors_eq
  · rw [long, ← same]
    constructor
    · intro whole
      exact ⟨_, le_rfl, by rwa [List.take_length]⟩
    · rintro ⟨k, bound, streak⟩
      rcases Nat.lt_or_eq_of_le bound with earlier | rfl
      · exact absurd streak (Nat.not_le_of_lt (streak_lt k earlier))
      · rwa [List.take_length] at streak
  · exact streak_lt
  · exact fed.degraded_of_diverted
  · rw [fed.written_eq]
    by_cases degraded : slot.degraded = true
    · rw [if_pos degraded, if_pos (long.mp degraded)]
      rfl
    · have nothing : diverted = [] := by
        by_contra some
        exact degraded (fed.degraded_of_diverted some)
      rw [if_neg degraded, if_neg (fun whole => degraded (long.mpr whole)), nothing]
      rfl

/-- A turn with a record does not flush the sink. -/
theorem serveSlot_unflushed {slot : SinkSlot} (unflushed : .flush ∉ slot.sink.calls)
    (entry : LogEntry) (buf : Bytes) : .flush ∉ (serveSlot entry buf slot).1.sink.calls := by
  have called : .flush ∉ (slot.sink.after (.writeEntry entry buf)).calls := by
    rw [Sink.after_calls, List.mem_append, List.mem_singleton]
    exact not_or.mpr ⟨unflushed, nofun⟩
  unfold serveSlot
  split_ifs
  · exact unflushed
  · exact unflushed
  · dsimp only
    split
    · exact called
    · split_ifs <;> exact called

/-- Every sequence of records leaves a fresh slot with a history. -/
theorem slotHistory_serveAll (format : Format) (behave : List SinkCall → Outcome)
    (minLevel : Level) (entries : List LogEntry) :
    ∃ served diverted, SlotHistory format behave minLevel entries
      (serveAll format (.new ⟨behave, []⟩ minLevel) entries).1
      (serveAll format (.new ⟨behave, []⟩ minLevel) entries).2 served diverted := by
  have all : ∃ served diverted, Fed format behave minLevel False entries served diverted
      (serveAll format (.new ⟨behave, []⟩ minLevel) entries).1
      (serveAll format (.new ⟨behave, []⟩ minLevel) entries).2 ∧
      .flush ∉ (serveAll format (.new ⟨behave, []⟩ minLevel) entries).1.sink.calls := by
    induction entries using List.reverseRecOn with
    | nil => exact ⟨[], [], .fresh format ⟨behave, []⟩ rfl minLevel False, List.not_mem_nil⟩
    | append_singleton entries entry inductionHypothesis =>
        obtain ⟨served, diverted, fed, unflushed⟩ := inductionHypothesis
        obtain ⟨served, diverted, next⟩ := fed.record entry
        rw [serveAll_concat]
        exact ⟨served, diverted, next, serveSlot_unflushed unflushed entry _⟩
  obtain ⟨served, diverted, fed, unflushed⟩ := all
  exact ⟨_, diverted, fed.slotHistory unflushed⟩

/-! ## All slots -/

/-- The part of a trace of standard error written for one slot. -/
def stderrFor (position : Nat) (stderr : List (Nat × Bytes)) : List Bytes :=
  stderr.filterMap fun write => if write.1 = position then some write.2 else none

theorem stderrFor_append (position : Nat) (first second : List (Nat × Bytes)) :
    stderrFor position (first ++ second) =
      stderrFor position first ++ stderrFor position second :=
  List.filterMap_append

theorem stderrFor_tagged (position : Nat) (written : List Bytes) :
    stderrFor position (written.map fun bytes => (position, bytes)) = written := by
  simp [stderrFor, List.filterMap_map]

theorem stderrFor_tagged_ne {position other : Nat} (distinct : other ≠ position)
    (written : List Bytes) :
    stderrFor position (written.map fun bytes => (other, bytes)) = [] := by
  simp [stderrFor, List.filterMap_map, distinct]

/-- A slot position before the loop's has nothing written for it. -/
theorem stderrFor_serveSlots_lt (entry : LogEntry) (buf : Bytes) {position first : Nat}
    (earlier : position < first) (slots : List SinkSlot) :
    stderrFor position (serveSlots entry buf first slots).2 = [] := by
  induction slots generalizing first with
  | nil => rfl
  | cons slot rest ih =>
      simp only [serveSlots, stderrFor_append]
      rw [stderrFor_tagged_ne (Nat.ne_of_gt earlier), ih (Nat.lt_succ_of_lt earlier)]
      rfl

/-- What one record writes to standard error for a slot is what that slot's turn
writes. -/
theorem stderrFor_serveSlots (entry : LogEntry) (buf : Bytes) (first : Nat)
    {slots : List SinkSlot} {i : Nat} {slot : SinkSlot} (found : slots[i]? = some slot) :
    stderrFor (first + i) (serveSlots entry buf first slots).2 =
      (serveSlot entry buf slot).2 := by
  induction slots generalizing first i with
  | nil => simp at found
  | cons head rest ih =>
      simp only [serveSlots, stderrFor_append]
      cases i with
      | zero =>
          cases found
          rw [Nat.add_zero, stderrFor_tagged,
            stderrFor_serveSlots_lt _ _ (Nat.lt_succ_self first), List.append_nil]
      | succ i =>
          rw [stderrFor_tagged_ne (by omega), List.nil_append,
            show first + (i + 1) = first + 1 + i by omega]
          exact ih (first + 1) found

/-- Over a sequence of records each slot goes its own way. -/
theorem receive_log {K : Type} (format : Format) (records : List (K × LogEntry))
    {slots : List SinkSlot} {i : Nat} {slot : SinkSlot} (found : slots[i]? = some slot) :
    let received := receive format (records.map fun record => .log record.1 record.2) slots
    let served := serveAll format slot (records.map Prod.snd)
    received.1[i]? = some served.1 ∧ stderrFor i received.2 = served.2 := by
  induction records generalizing slots slot with
  | nil => exact ⟨found, rfl⟩
  | cons record records ih =>
      obtain ⟨key, entry⟩ := record
      have next : (serveSlots entry (format.record entry) 0 slots).1[i]? =
          some (serveSlot entry (format.record entry) slot).1 := by
        rw [serveSlots_fst, List.getElem?_map, found]
        rfl
      have stderr := stderrFor_serveSlots entry (format.record entry) 0 found
      rw [Nat.zero_add] at stderr
      obtain ⟨slotAfter, written⟩ := ih next
      simp only [List.map_cons, receive, turn_log, serveAll, stderrFor_append, stderr]
      exact ⟨slotAfter, congrArg _ written⟩

/-- Fan-out and degradation.  After any sequence of records, slot `i` has the
history of a slot that saw these records alone. -/
theorem receive_slotHistory {K : Type} (format : Format)
    (configs : List ((List SinkCall → Outcome) × Level)) (records : List (K × LogEntry))
    (i : Fin configs.length) :
    let received := receive format (records.map fun record => .log record.1 record.2)
      (configs.map fun config => .new ⟨config.1, []⟩ config.2)
    ∃ slot served diverted, received.1[i.val]? = some slot ∧
      SlotHistory format configs[i].1 configs[i].2 (records.map Prod.snd) slot
        (stderrFor i received.2) served diverted := by
  have found : (configs.map fun config => SinkSlot.new ⟨config.1, []⟩ config.2)[i.val]? =
      some (.new ⟨configs[i].1, []⟩ configs[i].2) := by
    simp
  obtain ⟨slotAfter, written⟩ := receive_log format records found
  obtain ⟨served, diverted, history⟩ :=
    slotHistory_serveAll format configs[i].1 configs[i].2 (records.map Prod.snd)
  rw [← written] at history
  exact ⟨_, served, diverted, slotAfter, history⟩

end XosLog.Writer
