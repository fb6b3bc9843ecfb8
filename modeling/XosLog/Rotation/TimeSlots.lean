import XosLog.Rotation.Journal

/-!
# No file mixes slots

The slot that a sink remembers is that of the last modification of its active
file, carried over by writes and recovered when the file is opened again.  As
the clock does not go backwards, a write that does not rotate is in that slot.
-/

namespace XosLog.Rotation

open FileSystem Transition

/-! ## The clock -/

/-- A write during which the clock stands still at an instant. -/
def WriteEnv.At (env : WriteEnv) (now : Instant) : Prop :=
  env.checked = now ∧ env.reopened = now ∧ env.rotated = now ∧ env.written = now

/-- Events under a clock that does not go backwards, and stands still during each
write. -/
def Ticks : Instant → List Event → Prop
  | _, [] => True
  | now, .write env _ :: events => ∃ later, now ≤ later ∧ env.At later ∧ Ticks later events
  | now, .reopen _ _ _ env :: events =>
      now ≤ env.opened ∧ env.opened ≤ env.checked ∧ Ticks env.checked events

/-- The event meets no fault and keeps the interval. -/
def Event.OnSchedule (interval : RotationInterval) (event : Event) : Prop :=
  event.Free ∧
    match event with
    | .write _ _ => True
    | .reopen _ _ newInterval _ => newInterval = interval

/-- While its slot has not ended, a sink is in the slot of the clock. -/
theorem slotStart_of_not_elapsed {sink : FileSink} {modified now : Instant}
    (dated : sink.interval.slotStart modified = sink.intervalStart) (past : modified ≤ now)
    (calm : sink.intervalElapsed now = false) :
    sink.interval.slotStart now = sink.intervalStart := by
  rcases sink.interval.slotStart_mono past with ⟨first, last⟩ | ⟨slot, nowSlot, first, last, le⟩
  · rw [← dated, first, last]
  · rw [FileSink.intervalElapsed, ← dated, first, last, decide_eq_false_iff_not] at calm
    rw [← dated, first, last, Nat.le_antisymm le (Nat.not_lt.mp calm)]

/-! ## The invariant -/

/-- The slots of the records in the files, at an instant. -/
structure Slotted (interval : RotationInterval) (now : Instant) (logged : Logged) : Prop where
  interval_eq : logged.world.sink.interval = interval
  single : ∀ ino, ∀ first ∈ logged.journal.written ino, ∀ second ∈ logged.journal.written ino,
    interval.slotStart first.1 = interval.slotStart second.1
  active : ∀ entry ∈ logged.journal.written logged.world.sink.file,
    interval.slotStart entry.1 = logged.world.sink.intervalStart
  dated : interval.slotStart (logged.world.disk.inodes logged.world.sink.file).modified =
    logged.world.sink.intervalStart
  past : (logged.world.disk.inodes logged.world.sink.file).modified ≤ now

/-- A record that joins records of its own slot. -/
theorem active_write {interval : RotationInterval} {journal : Journal} {file : Nat} {now : Instant}
    (bytes : Bytes)
    (same : ∀ entry ∈ journal.written file, interval.slotStart entry.1 = interval.slotStart now) :
    ∀ entry ∈ (journal.write file now bytes).written file,
      interval.slotStart entry.1 = interval.slotStart now := by
  intro entry member
  rw [journal.written_write_self] at member
  rcases List.mem_append.mp member with old | added
  · exact same entry old
  · rw [List.mem_singleton.mp added]

/-- A record is appended to the active file in the slot of that file. -/
theorem slotted_append {interval : RotationInterval} {now : Instant} {sink : FileSink}
    {disk : Volume} {journal : Journal} {file : Nat} (bytes : Bytes)
    (isFile : sink.file = file) (interval_eq : sink.interval = interval)
    (single : ∀ ino, ∀ first ∈ journal.written ino, ∀ second ∈ journal.written ino,
      interval.slotStart first.1 = interval.slotStart second.1)
    (same : ∀ entry ∈ journal.written file, interval.slotStart entry.1 = interval.slotStart now)
    (inSlot : interval.slotStart now = sink.intervalStart)
    (dated : interval.slotStart (disk.inodes file).modified = sink.intervalStart)
    (past : (disk.inodes file).modified ≤ now) :
    Slotted interval now {
      world := { sink, disk := disk.append file bytes now },
      journal := journal.write file now bytes } := by
  subst isFile
  constructor
  · exact interval_eq
  · intro ino
    by_cases isFile : ino = sink.file
    · subst isFile
      intro first firstMember second secondMember
      rw [active_write bytes same first firstMember, active_write bytes same second secondMember]
    · rw [journal.written_write_of_ne isFile]
      exact single ino
  · intro entry member
    exact (active_write bytes same entry member).trans inSlot
  · rw [Disk.modified_append]
    split
    · exact inSlot
    · exact dated
  · rw [Disk.modified_append]
    split
    · exact Int.le_refl now
    · exact past

section

variable {first : World} {interval : RotationInterval} {now : Instant} {logged : Logged}
  {env : WriteEnv} (bytes : Bytes) (slotted : Slotted interval now logged)

include slotted

/-- A write that does not rotate is in the slot of the sink. -/
theorem Slotted.extend (le : now ≤ env.written) (checked : env.checked = env.written)
    (calm : rotationDue env bytes logged.world.sink = false) :
    Slotted interval env.written (logged.extend env bytes) := by
  obtain ⟨interval_eq, single, active, dated, past⟩ := slotted
  have stillPast := Int.le_trans past le
  have notElapsed : logged.world.sink.intervalElapsed env.written = false := by
    rw [rotationDue, Bool.or_eq_false_iff, checked] at calm
    exact calm.2
  have inSlot : interval.slotStart env.written = logged.world.sink.intervalStart := by
    subst interval_eq
    exact slotStart_of_not_elapsed dated stillPast notElapsed
  apply slotted_append
  · rfl
  · exact interval_eq
  · exact single
  · intro entry member
    exact (active entry member).trans inSlot.symm
  · exact inSlot
  · exact dated
  · exact stillPast

/-- The new file has no records yet, and it begins at the instant of the write. -/
theorem Slotted.keep (journaled : Journaled first logged) (reopened : env.reopened = env.written)
    (rotated : env.rotated = env.written) :
    Slotted interval env.written (logged.keep env bytes) := by
  obtain ⟨interval_eq, single, _, _, _⟩ := slotted
  have begins : logged.world.sink.interval.slotStart env.rotated =
      interval.slotStart env.written := by
    rw [interval_eq, rotated]
  have modified : (((shifted logged.world.sink .faultless logged.world.disk).create
      logged.world.sink.path env.reopened).inodes logged.world.disk.fresh).modified =
        env.written := by
    rw [Disk.inodes_create, fresh_shifted, Function.update_self]
    exact reopened
  apply slotted_append
  · rfl
  · exact interval_eq
  · exact single
  · intro entry member
    have none : entry ∈ [] := journaled.unused _ (Nat.le_refl _) ▸ member
    contradiction
  · exact begins.symm
  · exact (congrArg interval.slotStart modified).trans begins.symm
  · exact Int.le_of_eq modified

/-- An emptied file begins at the instant of the write, too. -/
theorem Slotted.truncate (reopened : env.reopened = env.written)
    (rotated : env.rotated = env.written) :
    Slotted interval env.written (logged.truncate env bytes) := by
  obtain ⟨interval_eq, single, _, _, _⟩ := slotted
  have begins : logged.world.sink.interval.slotStart env.rotated =
      interval.slotStart env.written := by
    rw [interval_eq, rotated]
  have modified : ((logged.world.disk.update logged.world.sink.file
      { content := [], modified := env.reopened }).inodes
        logged.world.sink.file).modified = env.written := by
    rw [Disk.inodes_update, Function.update_self]
    exact reopened
  apply slotted_append
  · rfl
  · exact interval_eq
  · intro ino
    by_cases emptied : ino = logged.world.sink.file
    · subst emptied
      rw [Journal.written_truncate_self]
      intro entry member
      contradiction
    · rw [Journal.written_truncate_of_ne _ emptied]
      exact single ino
  · rw [Journal.written_truncate_self]
    intro entry member
    contradiction
  · exact begins.symm
  · exact (congrArg interval.slotStart modified).trans begins.symm
  · exact Int.le_of_eq modified

theorem Slotted.write {later : Instant} {next : Logged} (journaled : Journaled first logged)
    (le : now ≤ later) (still : env.At later) (free : env.verdicts = .faultless)
    (stepped : logStep logged (.write env bytes) = some next) : Slotted interval later next := by
  obtain ⟨checked, reopened, rotated, rfl⟩ := still
  rcases logStep_write_cases journaled.attached free stepped with
    ⟨calm, rfl⟩ | ⟨_, rfl⟩ | ⟨_, rfl⟩
  · exact slotted.extend bytes le checked calm
  · exact slotted.keep bytes journaled reopened rotated
  · exact slotted.truncate bytes reopened rotated

end

/-- Reopening recovers the slot from the active file. -/
theorem Slotted.reopen {first : World} {interval : RotationInterval} {now : Instant}
    {logged next : Logged} {maxSize maxBackups : Nat} {env : OpenEnv}
    (slotted : Slotted interval now logged) (journaled : Journaled first logged)
    (le : now ≤ env.checked) (free : env.Faultless)
    (stepped : logStep logged (.reopen maxSize maxBackups interval env) = some next) :
    Slotted interval env.checked next := by
  obtain ⟨_, single, active, dated, past⟩ := slotted
  obtain rfl := logStep_reopen_eq_some journaled.attached free stepped
  have stillPast := Int.le_trans past le
  have recovered := intervalStartFor_some
    (logged.world.disk.inodes logged.world.sink.file).modified interval env.checked
  constructor
  · rfl
  · exact single
  · intro entry member
    exact (active entry member).trans (dated.symm.trans recovered.symm)
  · exact recovered.symm
  · exact stillPast

/-- A run whose clock does not go backwards keeps every file to one slot. -/
theorem Slotted.run {first : World} {interval : RotationInterval} {now : Instant}
    {logged : Logged} {events : List Event} (slotted : Slotted interval now logged)
    (journaled : Journaled first logged)
    (scheduled : ∀ event ∈ events, event.OnSchedule interval) (ticks : Ticks now events) :
    ∃ later target, Transition.run logStep logged events = some target ∧
      Slotted interval later target ∧ Journaled first target := by
  induction events generalizing now logged with
  | nil => exact ⟨now, logged, rfl, slotted, journaled⟩
  | cons event events inductionHypothesis =>
      obtain ⟨free, keeps⟩ := scheduled event List.mem_cons_self
      have rest : ∀ event ∈ events, event.OnSchedule interval :=
        fun later member => scheduled later (List.mem_cons_of_mem event member)
      obtain ⟨next, stepped⟩ := exists_logStep journaled.attached free
      have nextJournaled := journaled.step free stepped
      have continues : ∀ {later : Instant}, Slotted interval later next → Ticks later events →
          ∃ later target, Transition.run logStep logged (event :: events) = some target ∧
            Slotted interval later target ∧ Journaled first target := by
        intro later nextSlotted ticks
        obtain ⟨last, target, ran, kept⟩ :=
          inductionHypothesis nextSlotted nextJournaled rest ticks
        exact ⟨last, target, (run_cons_eq_some logStep).mpr ⟨next, stepped, ran⟩, kept⟩
      cases event with
      | write env bytes =>
          obtain ⟨later, le, still, ticks⟩ := ticks
          exact continues (slotted.write bytes journaled le still free stepped) ticks
      | reopen maxSize maxBackups newInterval env =>
          obtain ⟨le, forward, ticks⟩ := ticks
          obtain rfl : newInterval = interval := keeps
          exact continues
            (slotted.reopen journaled (Int.le_trans le forward) free stepped) ticks

/-! ## Opening -/

/-- A sink that has just been opened is in the slot of its file. -/
theorem slotted_opened {path : Text} {maxSize maxBackups : Nat} {interval : RotationInterval}
    {opening : OpenEnv} {disk : Volume} {first : World} (free : opening.Faultless)
    (forward : opening.opened ≤ opening.checked)
    (past : ∀ ino, disk.links path = some ino → (disk.inodes ino).modified ≤ opening.checked)
    (opened : openWith path maxSize maxBackups interval opening disk =
      (.ok first.sink, first.disk)) :
    Slotted interval opening.checked first.logged := by
  obtain ⟨sink, origin⟩ := sink_of_openWith free opened
  have stillPast : (first.disk.inodes first.sink.file).modified ≤ opening.checked := by
    rcases origin with ⟨linked, same⟩ | ⟨created, fresh⟩
    · rw [same]
      exact past _ linked
    · rw [created, fresh, Disk.inodes_create, Function.update_self]
      exact forward
  have inSlot := intervalStartFor_some
    (first.disk.inodes first.sink.file).modified interval opening.checked
  constructor
  · exact congrArg FileSink.interval sink
  · intro ino entry member
    contradiction
  · intro entry member
    contradiction
  · exact inSlot.symm.trans (congrArg FileSink.intervalStart sink).symm
  · exact stillPast

/-- No file mixes slots.  In a run without faults, under a clock that does not go
backwards and stands still during each write, all records that the journal has for
a file were written in one slot, and they are what the file holds beyond its first
content. -/
theorem files_keep_slots (path : Text) (maxSize maxBackups : Nat) (interval : RotationInterval)
    (disk : Volume) {opening : OpenEnv} (free : opening.Faultless)
    (forward : opening.opened ≤ opening.checked)
    (past : ∀ ino, disk.links path = some ino → (disk.inodes ino).modified ≤ opening.checked)
    {events : List Event} (scheduled : ∀ event ∈ events, event.OnSchedule interval)
    (ticks : Ticks opening.checked events) :
    ∃ (first : World) (logged : Logged),
      openWith path maxSize maxBackups interval opening disk = (.ok first.sink, first.disk) ∧
      run logStep first.logged events = some logged ∧
      run step first events = some logged.world ∧
      ∀ ino,
        (∃ base, (base = [] ∨ base = (first.disk.inodes ino).content) ∧
          (logged.world.disk.inodes ino).content = base ++ logged.journal.bytes ino) ∧
        ∀ earlier ∈ logged.journal.written ino, ∀ later ∈ logged.journal.written ino,
          interval.slotStart earlier.1 = interval.slotStart later.1 := by
  obtain ⟨first, opened, attached, _⟩ :=
    openWith_faultless path maxSize maxBackups interval free disk
  have slotted := slotted_opened free forward past opened
  obtain ⟨_, logged, ran, ⟨_, single, _⟩, ⟨_, _, accounted⟩⟩ :=
    slotted.run (journaled_first attached) scheduled ticks
  exact ⟨first, logged, opened, ran, run_of_logStep ran, fun ino => ⟨accounted ino, single ino⟩⟩

/-- A file of the first hour. -/
def leftover : Volume :=
  (Disk.empty.create "a".toList 0).append 0 [1] 0

/-- Writes in the second and the third hour, with a reopening between them. -/
def hourlyRun : List Event :=
  let second := 3600000000000
  let third := 7200000000000
  [.write ⟨second, second, second, second, .faultless⟩ [2],
    .reopen 0 3 .hourly ⟨true, true, true, true, second, second⟩,
    .write ⟨third, third, third, third, .faultless⟩ [3]]

theorem files_keep_slots_leftover :
    ∃ (first : World) (logged : Logged),
      openWith "a".toList 8 3 .hourly ⟨true, true, true, true, 1, 2⟩ leftover =
        (.ok first.sink, first.disk) ∧
      run logStep first.logged hourlyRun = some logged ∧
      run step first hourlyRun = some logged.world ∧
      ∀ ino,
        (∃ base, (base = [] ∨ base = (first.disk.inodes ino).content) ∧
          (logged.world.disk.inodes ino).content = base ++ logged.journal.bytes ino) ∧
        ∀ earlier ∈ logged.journal.written ino, ∀ later ∈ logged.journal.written ino,
          RotationInterval.hourly.slotStart earlier.1 =
            RotationInterval.hourly.slotStart later.1 := by
  apply files_keep_slots
  · exact ⟨rfl, rfl, rfl, rfl⟩
  · decide
  · intro ino linked
    obtain rfl : 0 = ino := Option.some.inj linked
    decide
  · intro event member
    simp only [hourlyRun, List.mem_cons, List.not_mem_nil, or_false] at member
    rcases member with rfl | rfl | rfl
    · exact ⟨rfl, trivial⟩
    · exact ⟨⟨rfl, rfl, rfl, rfl⟩, rfl⟩
    · exact ⟨rfl, trivial⟩
  · refine ⟨_, ?_, ⟨rfl, rfl, rfl, rfl⟩, ?_, ?_, _, ?_, ⟨rfl, rfl, rfl, rfl⟩, trivial⟩ <;> decide

end XosLog.Rotation
