import XosLog.Rotation.Journal

/-!
# The size bound

The size that a sink counts is the length of its active file.  A file that a
rotation begins therefore stays within the limit, unless it is one record that
exceeds the limit by itself, and so do the backups made of such files.
-/

namespace XosLog.Rotation

open FileSystem Transition

/-- The content of the active file. -/
def World.active (world : World) : Bytes :=
  (world.disk.inodes world.sink.file).content

/-- The event meets no fault and keeps the size limit. -/
def Event.OfSize (maxSize : Nat) (event : Event) : Prop :=
  event.Free ∧
    match event with
    | .write _ _ => True
    | .reopen newMaxSize _ _ _ => newMaxSize = maxSize

/-- The length of the active file remains a `u64`.  Only the largest limit does
not see to that by itself. -/
def Fits (maxSize : Nat) (world : World) (event : Event) : Prop :=
  maxSize = maxU64 → ∀ next, step world event = some next → next.active.length ≤ maxU64

/-- Below the largest limit there is nothing to require. -/
theorem fits_of_lt {maxSize : Nat} (below : maxSize < maxU64) (world : World)
    (events : List Event) : AllSteps step (Fits maxSize) world events :=
  allSteps_of_forall (fun _ _ largest => absurd largest (Nat.ne_of_lt below)) world events

/-- Within the limit, or one of the records. -/
def Bounded (maxSize : Nat) (past : List Bytes) (content : Bytes) : Prop :=
  content.length ≤ maxSize ∨ content ∈ past

theorem Bounded.append {maxSize : Nat} {past : List Bytes} {content : Bytes}
    (bounded : Bounded maxSize past content) (later : List Bytes) :
    Bounded maxSize (past ++ later) content :=
  bounded.imp_right (List.mem_append_left later)

/-- A record that causes no rotation leaves the file within the limit. -/
theorem length_le_of_not_sizeHit {sink : FileSink} {bytes : Bytes} (positive : 0 < sink.maxSize)
    (representable : sink.maxSize ≤ maxU64)
    (fits : sink.maxSize = maxU64 → sink.size + bytes.length ≤ maxU64)
    (calm : sink.sizeHit bytes = false) : sink.size + bytes.length ≤ sink.maxSize := by
  rw [FileSink.sizeHit, decide_eq_false_iff_not, saturatingAdd] at calm
  have within : min (sink.size + bytes.length) maxU64 ≤ sink.maxSize :=
    Nat.not_lt.mp fun exceeds => calm ⟨positive, exceeds⟩
  by_cases largest : sink.maxSize = maxU64
  · rw [largest]
    exact fits largest
  · omega

/-- What is known of the sizes after the records of a run. -/
structure Sized (maxSize : Nat) (past : List Bytes) (logged : Logged) : Prop where
  maxSize_eq : logged.world.sink.maxSize = maxSize
  counted : logged.world.sink.size = logged.world.active.length
  active : 0 < logged.journal.rotations → Bounded maxSize past logged.world.active
  backups : ∀ ino ∈ logged.journal.backups, ino < logged.world.disk.fresh ∧
    ino ≠ logged.world.sink.file ∧
    Bounded maxSize past (logged.world.disk.inodes ino).content

/-- A record is appended to a file that stays within the limit, or is alone in it. -/
theorem sized_append {maxSize : Nat} {past : List Bytes} {sink : FileSink} {disk : Volume}
    {journal : Journal} {file : Nat} (now : Instant) (bytes : Bytes) (isFile : sink.file = file)
    (maxSize_eq : sink.maxSize = maxSize)
    (counted : sink.size = ((disk.inodes file).content ++ bytes).length)
    (limited : ((disk.inodes file).content ++ bytes).length ≤ maxSize ∨
      (disk.inodes file).content = [])
    (backups : ∀ ino ∈ journal.backups, ino < disk.fresh ∧ ino ≠ file ∧
      Bounded maxSize past (disk.inodes ino).content) :
    let next : Logged := {
      world := { sink, disk := disk.append file bytes now },
      journal := journal.write file now bytes }
    (next.world.active.length ≤ maxSize ∨ next.world.active = bytes) ∧
      Sized maxSize (past ++ [bytes]) next := by
  intro next
  subst isFile
  have content : next.world.active = (disk.inodes sink.file).content ++ bytes := by
    rw [World.active, Disk.content_append, if_pos rfl]
  have alone : next.world.active.length ≤ maxSize ∨ next.world.active = bytes := by
    rw [content]
    exact limited.imp_right fun empty => by rw [empty, List.nil_append]
  refine ⟨alone, ?_⟩
  constructor
  · exact maxSize_eq
  · rw [content]
    exact counted
  · intro _
    rcases alone with within | single
    · exact Or.inl within
    · exact Or.inr (List.mem_append_right past (List.mem_singleton.mpr single))
  · intro ino kept
    obtain ⟨inUse, distinct, bounded⟩ := backups ino kept
    rw [Disk.fresh_append, Disk.content_append, if_neg distinct]
    exact ⟨inUse, distinct, bounded.append [bytes]⟩

section

variable {first : World} {maxSize : Nat} {past : List Bytes} {logged next : Logged}
  {env : WriteEnv} {bytes : Bytes} (sized : Sized maxSize past logged)

include sized

/-- A write that does not rotate finds room. -/
theorem Sized.extend (positive : 0 < maxSize) (representable : maxSize ≤ maxU64)
    (measured : maxSize = maxU64 → (logged.extend env bytes).world.active.length ≤ maxU64)
    (calm : rotationDue env bytes logged.world.sink = false) :
    ((logged.extend env bytes).world.active.length ≤ maxSize ∨
        (logged.extend env bytes).world.active = bytes) ∧
      Sized maxSize (past ++ [bytes]) (logged.extend env bytes) := by
  obtain ⟨maxSize_eq, counted, _, backups⟩ := sized
  have grown : logged.world.sink.size + bytes.length = (logged.world.active ++ bytes).length := by
    rw [counted, List.length_append]
  have content : (logged.extend env bytes).world.active = logged.world.active ++ bytes := by
    rw [World.active, Disk.content_append, if_pos rfl, World.active]
  have within : logged.world.sink.size + bytes.length ≤ maxSize := by
    subst maxSize_eq
    apply length_le_of_not_sizeHit positive representable
    · intro largest
      rw [grown, ← content]
      exact measured largest
    · rw [rotationDue, Bool.or_eq_false_iff] at calm
      exact calm.1
  apply sized_append
  · rfl
  · exact maxSize_eq
  · exact grown
  · exact Or.inl (grown ▸ within)
  · exact backups

/-- The rotated file becomes a backup, and the new one holds the record alone. -/
theorem Sized.keep (attached : logged.world.Attached) :
    ((logged.keep env bytes).world.active.length ≤ maxSize ∨
        (logged.keep env bytes).world.active = bytes) ∧
      Sized maxSize (past ++ [bytes]) (logged.keep env bytes) := by
  obtain ⟨maxSize_eq, _, active, backups⟩ := sized
  have empty : (((shifted logged.world.sink .faultless logged.world.disk).create
      logged.world.sink.path env.reopened).inodes logged.world.disk.fresh).content = [] := by
    rw [Disk.inodes_create, fresh_shifted, Function.update_self]
  apply sized_append
  · rfl
  · exact maxSize_eq
  · rw [empty]
    rfl
  · exact Or.inr empty
  · intro ino kept
    have known : ino < logged.world.disk.fresh ∧
        Bounded maxSize past (logged.world.disk.inodes ino).content := by
      rcases logged.journal.mem_backups_keep kept with ⟨rotated, rfl⟩ | older
      · exact ⟨attached.file_lt, active rotated⟩
      · obtain ⟨below, _, bounded⟩ := backups ino older
        exact ⟨below, bounded⟩
    have distinct := Nat.ne_of_lt known.1
    rw [Disk.fresh_create, Disk.inodes_create, fresh_shifted, inodes_shifted,
      Function.update_of_ne distinct]
    exact ⟨Nat.lt_succ_of_lt known.1, distinct, known.2⟩

/-- The emptied file holds the record alone. -/
theorem Sized.truncate :
    ((logged.truncate env bytes).world.active.length ≤ maxSize ∨
        (logged.truncate env bytes).world.active = bytes) ∧
      Sized maxSize (past ++ [bytes]) (logged.truncate env bytes) := by
  obtain ⟨maxSize_eq, _, _, backups⟩ := sized
  have empty : ((logged.world.disk.update logged.world.sink.file
      { content := [], modified := env.reopened }).inodes
        logged.world.sink.file).content = [] := by
    rw [Disk.inodes_update, Function.update_self]
  apply sized_append
  · rfl
  · exact maxSize_eq
  · rw [empty]
    rfl
  · exact Or.inr empty
  · intro ino kept
    obtain ⟨below, distinct, bounded⟩ := backups ino kept
    rw [Disk.inodes_update, Function.update_of_ne distinct]
    exact ⟨below, distinct, bounded⟩

/-- A write leaves the active file within the limit or with its record alone. -/
theorem Sized.write (positive : 0 < maxSize) (representable : maxSize ≤ maxU64)
    (journaled : Journaled first logged) (free : env.verdicts = .faultless)
    (fits : Fits maxSize logged.world (.write env bytes))
    (stepped : logStep logged (.write env bytes) = some next) :
    (next.world.active.length ≤ maxSize ∨ next.world.active = bytes) ∧
      Sized maxSize (past ++ [bytes]) next := by
  have measured : maxSize = maxU64 → next.world.active.length ≤ maxU64 :=
    fun largest => fits largest next.world (step_of_logStep stepped)
  rcases logStep_write_cases journaled.attached free stepped with
    ⟨calm, rfl⟩ | ⟨_, rfl⟩ | ⟨_, rfl⟩
  · exact sized.extend positive representable measured calm
  · exact sized.keep journaled.attached
  · exact sized.truncate

end

theorem Sized.reopen {first : World} {maxSize : Nat} {past : List Bytes} {logged next : Logged}
    {maxBackups : Nat} {interval : RotationInterval} {env : OpenEnv}
    (sized : Sized maxSize past logged) (journaled : Journaled first logged)
    (free : env.Faultless)
    (stepped : logStep logged (.reopen maxSize maxBackups interval env) = some next) :
    Sized maxSize past next := by
  obtain rfl := logStep_reopen_eq_some journaled.attached free stepped
  constructor
  · rfl
  · rfl
  · exact sized.active
  · exact sized.backups

/-- What is known of the sizes holds along runs. -/
theorem Sized.run {first : World} {maxSize : Nat} {past : List Bytes} {logged : Logged}
    {events : List Event} (positive : 0 < maxSize) (representable : maxSize ≤ maxU64)
    (sized : Sized maxSize past logged) (journaled : Journaled first logged)
    (allowed : ∀ event ∈ events, event.OfSize maxSize)
    (fits : AllSteps step (Fits maxSize) logged.world events) :
    ∃ target, Transition.run logStep logged events = some target ∧ Journaled first target ∧
      Sized maxSize (past ++ records events) target := by
  induction events generalizing past logged with
  | nil =>
      rw [records, List.append_nil]
      exact ⟨logged, rfl, journaled, sized⟩
  | cons event events inductionHypothesis =>
      obtain ⟨free, keeps⟩ := allowed event List.mem_cons_self
      obtain ⟨next, stepped⟩ := exists_logStep journaled.attached free
      have nextSized : Sized maxSize (past ++ records [event]) next := by
        cases event with
        | write env bytes =>
            exact (sized.write positive representable journaled free fits.1 stepped).2
        | reopen newMaxSize maxBackups interval env =>
            obtain rfl : newMaxSize = maxSize := keeps
            rw [records, records, List.append_nil]
            exact sized.reopen journaled free stepped
      obtain ⟨target, ran, kept⟩ := inductionHypothesis nextSized (journaled.step free stepped)
        (fun later member => allowed later (List.mem_cons_of_mem event member))
        (fits.2 next.world (step_of_logStep stepped))
      rw [List.append_assoc, ← records_cons] at kept
      exact ⟨target, (run_cons_eq_some logStep).mpr ⟨next, stepped, ran⟩, kept⟩

/-- A run that ends in a write ends with the active file within the limit, or
with that record alone in it. -/
theorem Sized.run_write {first : World} {maxSize : Nat} {past : List Bytes} {logged target : Logged}
    {earlier : List Event} {env : WriteEnv} {bytes : Bytes} (positive : 0 < maxSize)
    (representable : maxSize ≤ maxU64) (sized : Sized maxSize past logged)
    (journaled : Journaled first logged)
    (allowed : ∀ event ∈ earlier ++ [.write env bytes], event.OfSize maxSize)
    (fits : AllSteps step (Fits maxSize) logged.world (earlier ++ [.write env bytes]))
    (ran : Transition.run logStep logged (earlier ++ [.write env bytes]) = some target) :
    target.world.active.length ≤ maxSize ∨ target.world.active = bytes := by
  obtain ⟨earlierFits, lastFits⟩ := allSteps_append.mp fits
  obtain ⟨middle, ranEarlier, journaled, sized⟩ := sized.run positive representable journaled
    (fun event member => allowed event (List.mem_append_left _ member)) earlierFits
  have last := allowed (.write env bytes) (List.mem_append_right earlier List.mem_cons_self)
  obtain ⟨found, foundRan, stepped⟩ := (run_concat_eq_some logStep).mp ran
  obtain rfl : middle = found := Option.some.inj (ranEarlier.symm.trans foundRan)
  have meets := lastFits middle.world (run_of_logStep ranEarlier)
  exact (sized.write positive representable journaled last.1 meets.1 stepped).1

/-- The size bound.  After every write of a run the active file is within the
limit or is the record just written, the size that the sink counts is its
length, and every backup made after the first rotation keeps the same bound. -/
theorem size_bounded (path : Text) (maxSize : Nat) (positive : 0 < maxSize)
    (representable : maxSize ≤ maxU64) (maxBackups : Nat) (interval : RotationInterval)
    (disk : Volume) {opening : OpenEnv} (free : opening.Faultless) {events : List Event}
    (allowed : ∀ event ∈ events, event.OfSize maxSize)
    (fits : ∀ first : World,
      openWith path maxSize maxBackups interval opening disk = (.ok first.sink, first.disk) →
        AllSteps step (Fits maxSize) first events) :
    ∃ (first : World) (logged : Logged),
      openWith path maxSize maxBackups interval opening disk = (.ok first.sink, first.disk) ∧
      run logStep first.logged events = some logged ∧
      run step first events = some logged.world ∧
      logged.world.disk.read logged.world.sink.path = some logged.world.active ∧
      logged.world.sink.size = logged.world.active.length ∧
      (∀ earlier env bytes, events = earlier ++ [.write env bytes] →
        logged.world.active.length ≤ maxSize ∨ logged.world.active = bytes) ∧
      ∀ ino ∈ logged.journal.backups,
        Bounded maxSize (records events) (logged.world.disk.inodes ino).content := by
  obtain ⟨first, opened, attached, _⟩ :=
    openWith_faultless path maxSize maxBackups interval free disk
  have sink := (sink_of_openWith free opened).1
  have start : Sized maxSize [] first.logged := by
    constructor
    · exact congrArg FileSink.maxSize sink
    · exact congrArg FileSink.size sink
    · intro rotated
      exact absurd rotated (Nat.lt_irrefl 0)
    · intro ino kept
      contradiction
  have journaled := journaled_first attached
  obtain ⟨logged, ran, kept, sized⟩ :=
    start.run positive representable journaled allowed (fits first opened)
  refine ⟨first, logged, opened, ran, run_of_logStep ran, ?_, sized.counted, ?_, ?_⟩
  · rw [Disk.read, kept.attached]
    rfl
  · rintro earlier env bytes rfl
    exact start.run_write positive representable journaled allowed (fits first opened) ran
  · intro ino backup
    exact (sized.backups ino backup).2.2

/-- A file that exceeds the limit of the runs below. -/
def oversized : Volume :=
  (Disk.empty.create "a".toList 0).append 0 [1, 2, 3, 4, 5] 0

/-- Writes to it, one of which exceeds the limit, and a reopening. -/
def oversizedRun : List Event :=
  [.write ⟨0, 0, 0, 0, .faultless⟩ [6], .write ⟨0, 0, 0, 0, .faultless⟩ [7, 8, 9, 10],
    .reopen 3 1 .daily ⟨true, true, true, true, 0, 0⟩,
    .write ⟨0, 0, 0, 0, .faultless⟩ [11, 12]]

theorem size_bounded_oversized :
    ∃ (first : World) (logged : Logged),
      openWith "a".toList 3 2 .hourly ⟨true, true, true, true, 0, 0⟩ oversized =
        (.ok first.sink, first.disk) ∧
      run logStep first.logged oversizedRun = some logged ∧
      (logged.world.active.length ≤ 3 ∨ logged.world.active = [11, 12]) ∧
      ∀ ino ∈ logged.journal.backups,
        Bounded 3 (records oversizedRun) (logged.world.disk.inodes ino).content := by
  have free : OpenEnv.Faultless ⟨true, true, true, true, 0, 0⟩ := ⟨rfl, rfl, rfl, rfl⟩
  have allowed : ∀ event ∈ oversizedRun, event.OfSize 3 := by
    intro event member
    simp only [oversizedRun, List.mem_cons, List.not_mem_nil, or_false] at member
    rcases member with rfl | rfl | rfl | rfl
    · exact ⟨rfl, trivial⟩
    · exact ⟨rfl, trivial⟩
    · exact ⟨⟨rfl, rfl, rfl, rfl⟩, rfl⟩
    · exact ⟨rfl, trivial⟩
  obtain ⟨first, logged, opened, ran, _, _, _, limited, backups⟩ :=
    size_bounded "a".toList 3 (by decide) (by decide) 2 .hourly oversized free allowed
      fun first _ => fits_of_lt (by decide) first oversizedRun
  exact ⟨first, logged, opened, ran, limited (oversizedRun.take 3) _ _ rfl, backups⟩

end XosLog.Rotation
