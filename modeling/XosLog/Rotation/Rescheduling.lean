import XosLog.Rotation.TimeSlots

/-!
# An interval given to an open sink

A sink can be given an interval after it has been opened.  It then takes the slot of
the clock for that of its file, where opening with the interval asks when the file was
last modified.
-/

namespace XosLog.Rotation

open FileSystem Transition

/-- Enable or disable time-based rotation on an already-opened sink. -/
def FileSink.rotateEvery (interval : RotationInterval) (now : Instant) (sink : FileSink) :
    FileSink :=
  { sink with interval, intervalStart := interval.slotStart now }

namespace World

/-- The sink has another interval, and its file belongs to a given slot. -/
abbrev within (interval : RotationInterval) (start : Option Nat) (world : World) : World :=
  { world with sink := { world.sink with interval, intervalStart := start } }

/-- The world after `rotate_every`. -/
abbrev reschedule (interval : RotationInterval) (now : Instant) (world : World) : World :=
  { world with sink := world.sink.rotateEvery interval now }

/-- The open file. -/
abbrev inode (world : World) : Inode UInt8 :=
  world.disk.inodes world.sink.file

/-- A run that begins with a journal of what the open file holds: one record, of the
time at which the file was last modified. -/
def resumed (world : World) : Logged where
  world := world
  journal :=
    if world.inode.content = [] then world.logged.journal
    else world.logged.journal.write world.sink.file world.inode.modified world.inode.content

end World

/-- The records in each file are of one slot. -/
def Logged.KeepsSlots (interval : RotationInterval) (logged : Logged) : Prop :=
  ∀ ino, ∀ earlier ∈ logged.journal.written ino, ∀ later ∈ logged.journal.written ino,
    interval.slotStart earlier.1 = interval.slotStart later.1

/-- The event writes at least one byte, if it writes at all. -/
def Event.Writes : Event → Prop
  | .write _ bytes => bytes ≠ []
  | .reopen .. => True

/-! ## The slot of the file -/

/-- The world after opening the file again with the interval. -/
abbrev World.recover (interval : RotationInterval) (world : World) : World :=
  world.within interval (interval.slotStart world.inode.modified)

section

variable {world : World} {interval : RotationInterval} {now : Instant}

/-- The journal has at most one record, for the open file. -/
theorem mem_written_resumed {ino : Nat} {record : Instant × Bytes}
    (member : record ∈ world.resumed.journal.written ino) :
    world.inode.content ≠ [] ∧ record = (world.inode.modified, world.inode.content) := by
  unfold World.resumed at member
  dsimp only at member
  split at member
  · contradiction
  · rename_i some
    refine ⟨some, ?_⟩
    by_cases same : ino = world.sink.file
    · rw [same, Journal.written_write_self] at member
      exact List.mem_singleton.mp member
    · rw [Journal.written_write_of_ne _ same] at member
      contradiction

theorem written_resumed (some : world.inode.content ≠ []) :
    world.resumed.journal.written world.sink.file =
      [(world.inode.modified, world.inode.content)] := by
  rw [World.resumed, if_neg some, Journal.written_write_self]
  rfl

theorem journaled_resumed (attached : world.Attached) : Journaled world world.resumed := by
  have first := journaled_first attached
  unfold World.resumed
  split
  · exact first
  · constructor
    · exact attached
    · intro ino beyond
      rw [Journal.written_write_of_ne _ (Nat.ne_of_gt (Nat.lt_of_lt_of_le attached.file_lt beyond))]
      rfl
    · intro ino
      by_cases same : ino = world.sink.file
      · refine ⟨[], Or.inl rfl, ?_⟩
        subst same
        simp [Journal.bytes, Journal.written_write_self, World.logged]
      · refine ⟨(world.disk.inodes ino).content, Or.inr rfl, ?_⟩
        rw [Journal.bytes_write, if_neg same]
        exact (List.append_nil _).symm

theorem keepsSlots_resumed : world.resumed.KeepsSlots interval := by
  intro ino earlier earlierMember later laterMember
  rw [(mem_written_resumed earlierMember).2, (mem_written_resumed laterMember).2]

theorem slotted_resumed (interval_eq : world.sink.interval = interval)
    (inSlot : interval.slotStart world.inode.modified = world.sink.intervalStart)
    (past : world.inode.modified ≤ now) : Slotted interval now world.resumed where
  interval_eq := interval_eq
  single := keepsSlots_resumed
  active record member := by
    rw [(mem_written_resumed member).2]
    exact inSlot
  dated := inSlot
  past := past

/-! ## The first event -/

section

variable (interval) (start other : Option Nat) (env : WriteEnv) (bytes : Bytes)

/-- A rotation forgets the slot of the file. -/
theorem keep_within : (world.within interval start).resumed.keep env bytes =
    (world.within interval other).resumed.keep env bytes :=
  rfl

theorem truncate_within : (world.within interval start).resumed.truncate env bytes =
    (world.within interval other).resumed.truncate env bytes :=
  rfl

/-- So does a reopening. -/
theorem reopen_within (maxSize maxBackups : Nat) (newInterval : RotationInterval)
    (env : OpenEnv) :
    logStep (world.within interval start).resumed (.reopen maxSize maxBackups newInterval env) =
      logStep (world.within interval other).resumed
        (.reopen maxSize maxBackups newInterval env) :=
  rfl

end

/-- A record begins an empty file in the slot of the clock. -/
theorem slotted_begin {bytes : Bytes} {env : WriteEnv} {later : Instant}
    (empty : world.inode.content = []) (some : bytes ≠ []) (le : now ≤ later)
    (still : env.At later)
    (calm : rotationDue env bytes (world.sink.rotateEvery interval now) = false) :
    Slotted interval later ((world.reschedule interval now).resumed.extend env bytes) := by
  obtain ⟨checked, -, -, written⟩ := still
  have nothing : ∀ ino, (world.reschedule interval now).resumed.journal.written ino = [] :=
    fun _ => List.eq_nil_iff_forall_not_mem.mpr fun _ member =>
      (mem_written_resumed member).1 empty
  have notElapsed : (world.sink.rotateEvery interval now).intervalElapsed later = false := by
    rw [rotationDue, Bool.or_eq_false_iff, checked] at calm
    exact calm.2
  have inSlot : interval.slotStart later = interval.slotStart now :=
    @slotStart_of_not_elapsed (world.sink.rotateEvery interval now) now later rfl le notElapsed
  have onlyThis : ∀ ino, ∀ record ∈
      ((world.reschedule interval now).resumed.extend env bytes).journal.written ino,
        record.1 = later := by
    intro ino record member
    change record ∈ ((world.reschedule interval now).resumed.journal.write world.sink.file
      env.written bytes).written ino at member
    by_cases same : ino = world.sink.file
    · rw [same, Journal.written_write_self, nothing] at member
      rw [List.mem_singleton.mp member]
      exact written
    · rw [Journal.written_write_of_ne _ same, nothing] at member
      contradiction
  have modified : (((world.reschedule interval now).resumed.extend env
      bytes).world.disk.inodes world.sink.file).modified = later := by
    rw [Disk.modified_append, if_pos ⟨rfl, some⟩]
    exact written
  constructor
  · rfl
  · intro ino earlier earlierMember next nextMember
    rw [onlyThis ino earlier earlierMember, onlyThis ino next nextMember]
  · intro record member
    rw [onlyThis _ record member]
    exact inSlot
  · exact (congrArg interval.slotStart modified).trans inSlot
  · exact Int.le_of_eq modified

/-- A file without room for one byte has no room for a record. -/
theorem sizeHit_of_nonempty {sink : FileSink} {bytes : Bytes} (full : sink.sizeHit [0] = true)
    (some : bytes ≠ []) : sink.sizeHit bytes = true := by
  have length := List.length_pos_iff.mpr some
  rw [FileSink.sizeHit, decide_eq_true_eq, saturatingAdd] at full ⊢
  rw [List.length_singleton] at full
  omega

/-- When the first event is not a write that extends a file with an older content, it
leaves every file in one slot. -/
theorem slotted_first {event : Event} {events : List Event} {next : Logged}
    (attached : world.Attached) (past : world.inode.modified ≤ now)
    (fits : world.inode.content = [] ∨ world.sink.sizeHit [0] = true)
    (scheduled : event.OnSchedule interval) (writes : event.Writes)
    (ticks : Ticks now (event :: events))
    (stepped : logStep (world.reschedule interval now).resumed event = some next) :
    ∃ later, Slotted interval later next ∧ Ticks later events := by
  have recovered : Slotted interval now (world.recover interval).resumed :=
    slotted_resumed rfl rfl past
  have journaled : Journaled (world.recover interval) (world.recover interval).resumed :=
    journaled_resumed attached
  obtain ⟨free, keeps⟩ := scheduled
  cases event with
  | write env bytes =>
      obtain ⟨later, le, still, ticks⟩ := ticks
      refine ⟨later, ?_, ticks⟩
      rcases logStep_write_cases attached free stepped with ⟨calm, rfl⟩ | ⟨_, rfl⟩ | ⟨_, rfl⟩
      · rcases fits with empty | full
        · exact slotted_begin empty writes le still calm
        · rw [rotationDue, Bool.or_eq_false_iff] at calm
          exact absurd (sizeHit_of_nonempty full writes) (Bool.eq_false_iff.mp calm.1)
      · obtain ⟨-, reopened, rotated, rfl⟩ := still
        have kept := recovered.keep bytes journaled reopened rotated
        rw [keep_within interval _ (interval.slotStart now)] at kept
        exact kept
      · obtain ⟨-, reopened, rotated, rfl⟩ := still
        have truncated := recovered.truncate bytes reopened rotated
        rw [truncate_within interval _ (interval.slotStart now)] at truncated
        exact truncated
  | reopen maxSize maxBackups newInterval env =>
      obtain ⟨le, forward, ticks⟩ := ticks
      obtain rfl : newInterval = interval := keeps
      have reopened := (reopen_within newInterval (newInterval.slotStart world.inode.modified)
        (newInterval.slotStart now) maxSize maxBackups newInterval env).trans stepped
      exact ⟨env.checked, recovered.reopen journaled (Int.le_trans le forward) free reopened, ticks⟩

/-! ## Runs -/

/-- The run goes through, and leaves the records of each file in one slot. -/
def EndsInSlots (interval : RotationInterval) (start : Logged) (events : List Event) : Prop :=
  ∃ target, run logStep start events = some target ∧ target.KeepsSlots interval

theorem Slotted.endsInSlots {first : World} {logged : Logged} {events : List Event}
    (slotted : Slotted interval now logged) (journaled : Journaled first logged)
    (scheduled : ∀ event ∈ events, event.OnSchedule interval) (ticks : Ticks now events) :
    EndsInSlots interval logged events := by
  obtain ⟨_, target, ran, kept, _⟩ := slotted.run journaled scheduled ticks
  exact ⟨target, ran, kept.single⟩

/-- A write of one byte, at once, joins what the file holds. -/
theorem joins_of_endsInSlots {env : WriteEnv}
    (some : world.inode.content ≠ []) (room : world.sink.sizeHit [0] = false)
    (still : env.At now) (free : env.verdicts = .faultless)
    (kept : EndsInSlots interval (world.reschedule interval now).resumed [.write env [0]]) :
    interval.slotStart world.inode.modified = interval.slotStart now := by
  obtain ⟨target, ran, single⟩ := kept
  obtain ⟨next, stepped, last⟩ := (run_cons_eq_some logStep).mp ran
  obtain rfl := Option.some.inj last
  have calm : rotationDue env [0] (world.reschedule interval now).resumed.world.sink = false := by
    have current : (world.sink.rotateEvery interval now).intervalElapsed env.checked = false := by
      rw [still.1, FileSink.intervalElapsed, FileSink.rotateEvery]
      cases interval.slotStart now with
      | none => rfl
      | some slot => exact decide_eq_false (Nat.lt_irrefl slot)
    rw [rotationDue, Bool.or_eq_false_iff]
    exact ⟨room, current⟩
  have journal : next.journal = (world.reschedule interval now).resumed.journal.write
      world.sink.file env.written [0] := by
    rw [← Option.some.inj stepped]
    dsimp only
    rw [Journal.rotate, calm, writeBytes_calm env [0] free calm]
    rfl
  have records : next.journal.written world.sink.file =
      [(world.inode.modified, world.inode.content), (env.written, [0])] := by
    have resumed := @written_resumed (world.reschedule interval now) some
    rw [journal, Journal.written_write_self]
    exact congrArg (· ++ [(env.written, [0])]) resumed
  have joined := single world.sink.file (world.inode.modified, world.inode.content)
    (by rw [records]; exact List.mem_cons_self) (env.written, [0])
    (by rw [records]; exact List.mem_cons_of_mem _ List.mem_cons_self)
  rw [still.2.2.2] at joined
  exact joined

/-- A sink that is given an interval keeps the records of each file to one slot, in every
run of records that are not empty, without faults and under a clock that does not go
backwards and stands still during each write, exactly when what its file holds was last
modified in the current slot, or the file is empty, or has no room for another byte. -/
theorem rotateEvery_keeps_slots_iff (attached : world.Attached)
    (past : world.inode.modified ≤ now) :
    (∀ events : List Event, (∀ event ∈ events, event.OnSchedule interval) →
      (∀ event ∈ events, event.Writes) → Ticks now events →
        EndsInSlots interval (world.reschedule interval now).resumed events) ↔
      interval.slotStart world.inode.modified = interval.slotStart now ∨
        world.inode.content = [] ∨ world.sink.sizeHit [0] = true := by
  constructor
  · intro kept
    by_cases some : world.inode.content = []
    · exact Or.inr (Or.inl some)
    · cases room : world.sink.sizeHit [0] with
      | true => exact Or.inr (Or.inr rfl)
      | false =>
          left
          let env : WriteEnv := ⟨now, now, now, now, .faultless⟩
          have still : env.At now := ⟨rfl, rfl, rfl, rfl⟩
          apply joins_of_endsInSlots some room still rfl
          apply kept
          · simp [Event.OnSchedule, Event.Free, env]
          · simp [Event.Writes]
          · exact ⟨now, Int.le_refl now, still, trivial⟩
  · intro fits events scheduled writes ticks
    rcases fits with same | fits
    · have slotted : Slotted interval now (world.reschedule interval now).resumed :=
        slotted_resumed rfl same past
      exact slotted.endsInSlots (journaled_resumed attached) scheduled ticks
    · cases events with
      | nil => exact ⟨_, rfl, keepsSlots_resumed⟩
      | cons event events =>
          have onSchedule := scheduled event List.mem_cons_self
          have journaled := @journaled_resumed (world.reschedule interval now) attached
          obtain ⟨next, stepped⟩ := exists_logStep journaled.attached onSchedule.1
          obtain ⟨later, slotted, ticks⟩ := slotted_first attached past fits onSchedule
            (writes event List.mem_cons_self) ticks stepped
          obtain ⟨target, ran, kept⟩ := slotted.endsInSlots (journaled.step onSchedule.1 stepped)
            (fun later member => scheduled later (List.mem_cons_of_mem event member)) ticks
          exact ⟨target, (run_cons_eq_some logStep).mpr ⟨next, stepped, ran⟩, kept⟩

end

/-- The file of the first hour, opened without an interval. -/
def leftoverWorld : World where
  sink := {
    path := "a".toList, file := 0, maxSize := 8, maxBackups := 3, size := 1, interval := .never,
    intervalStart := none }
  disk := leftover

/-- In the second hour the file of the first one gets an hourly interval, too late. -/
theorem rotateEvery_keeps_slots_iff_leftover :
    openWith "a".toList 8 3 .never ⟨true, true, true, true, 3600000000000, 3600000000000⟩ leftover =
      (.ok leftoverWorld.sink, leftoverWorld.disk) ∧
    ¬ ∀ events : List Event, (∀ event ∈ events, event.OnSchedule .hourly) →
      (∀ event ∈ events, event.Writes) → Ticks 3600000000000 events →
        EndsInSlots .hourly (leftoverWorld.reschedule .hourly 3600000000000).resumed events := by
  constructor
  · rfl
  · have attached : leftoverWorld.Attached := rfl
    have past : leftoverWorld.inode.modified ≤ 3600000000000 := by decide
    rw [rotateEvery_keeps_slots_iff attached past]
    decide

end XosLog.Rotation
