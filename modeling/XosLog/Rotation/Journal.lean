import XosLog.Rotation.Preservation

/-!
# The journal of a run

A run without faults is followed by a journal: which records it wrote to each
file since that file was last emptied, and which files its rotations made
backups.  The journal says what the files hold beyond what they held before.
-/

namespace XosLog.Rotation

open FileSystem Transition

/-- What a run has done to the files. -/
structure Journal where
  /-- The records in each file, oldest first, with the times they were written. -/
  written : Nat → List (Instant × Bytes)
  rotations : Nat
  /-- The files that were renamed by a rotation after the first one. -/
  backups : List Nat

/-- A world with the journal of the run that led to it. -/
structure Logged where
  world : World
  journal : Journal

/-- A run that begins. -/
def World.logged (world : World) : Logged :=
  { world, journal := { written := fun _ => [], rotations := 0, backups := [] } }

/-- The bytes of a file that the journal accounts for. -/
def Journal.bytes (journal : Journal) (ino : Nat) : Bytes :=
  (journal.written ino).flatMap Prod.snd

namespace Journal

/-- Add a record to a file. -/
def write (journal : Journal) (file : Nat) (now : Instant) (bytes : Bytes) : Journal :=
  { journal with
    written := Function.update journal.written file (journal.written file ++ [(now, bytes)]) }

/-- The active file becomes a backup. -/
def keep (journal : Journal) (file : Nat) : Journal :=
  { journal with
    rotations := journal.rotations + 1
    backups := if journal.rotations = 0 then journal.backups else file :: journal.backups }

/-- The active file is emptied. -/
def truncate (journal : Journal) (file : Nat) : Journal :=
  { journal with
    written := Function.update journal.written file []
    rotations := journal.rotations + 1 }

section

variable (journal : Journal) {file other : Nat}

theorem written_write_self (now : Instant) (bytes : Bytes) :
    (journal.write file now bytes).written file = journal.written file ++ [(now, bytes)] :=
  Function.update_self file _ _

theorem written_write_of_ne (distinct : other ≠ file) (now : Instant) (bytes : Bytes) :
    (journal.write file now bytes).written other = journal.written other :=
  Function.update_of_ne distinct _ _

theorem mem_backups_keep {ino : Nat} (kept : ino ∈ (journal.keep file).backups) :
    0 < journal.rotations ∧ ino = file ∨ ino ∈ journal.backups := by
  unfold keep at kept
  dsimp only at kept
  split at kept
  · exact Or.inr kept
  · rename_i rotated
    exact (List.mem_cons.mp kept).imp_left fun same => ⟨Nat.pos_of_ne_zero rotated, same⟩

theorem written_truncate_self : (journal.truncate file).written file = [] :=
  Function.update_self file _ _

theorem written_truncate_of_ne (distinct : other ≠ file) :
    (journal.truncate file).written other = journal.written other :=
  Function.update_of_ne distinct _ _

end

/-- What a write rotates. -/
def rotate (journal : Journal) (env : WriteEnv) (bytes : Bytes) (sink : FileSink) : Journal :=
  if rotationDue env bytes sink then
    if 0 < sink.maxBackups then journal.keep sink.file else journal.truncate sink.file
  else journal

end Journal

/-- One event, followed by the journal. -/
def logStep : Step Logged Event
  | logged, .write env bytes =>
      let next := (writeBytes env bytes logged.world).1
      let journal := logged.journal.rotate env bytes logged.world.sink
      some { world := next, journal := journal.write next.sink.file env.written bytes }
  | logged, .reopen maxSize maxBackups interval env =>
      (step logged.world (.reopen maxSize maxBackups interval env)).map fun next =>
        { logged with world := next }

/-- The journal only watches. -/
theorem step_of_logStep {logged next : Logged} {event : Event}
    (stepped : logStep logged event = some next) :
    step logged.world event = some next.world := by
  cases event with
  | write env bytes =>
      obtain rfl := Option.some.inj stepped
      rfl
  | reopen maxSize maxBackups interval env =>
      obtain ⟨reached, opened, rfl⟩ := Option.map_eq_some_iff.mp stepped
      exact opened

theorem run_of_logStep {logged target : Logged} {events : List Event}
    (ran : run logStep logged events = some target) :
    run step logged.world events = some target.world := by
  induction events generalizing logged with
  | nil =>
      cases ran
      rfl
  | cons event events inductionHypothesis =>
      obtain ⟨next, stepped, ran⟩ := (run_cons_eq_some logStep).mp ran
      exact (run_cons_eq_some step).mpr
        ⟨next.world, step_of_logStep stepped, inductionHypothesis ran⟩

/-! ## Events without faults -/

section

variable (env : WriteEnv) (bytes : Bytes) {world : World}

/-- The whole record is appended. -/
theorem appendBytes_faultless (world : World) (faultless : env.verdicts = .faultless) :
    appendBytes env bytes world =
      ({ sink := { world.sink with size := world.sink.size + bytes.length },
         disk := world.disk.append world.sink.file bytes env.written }, .ok ()) := by
  rw [appendBytes, faultless]
  rfl

/-- A write without a fault that does not rotate. -/
theorem writeBytes_calm (faultless : env.verdicts = .faultless)
    (calm : rotationDue env bytes world.sink = false) :
    (writeBytes env bytes world).1 =
      { sink := { world.sink with size := world.sink.size + bytes.length },
        disk := world.disk.append world.sink.file bytes env.written } := by
  rw [writeBytes, calm, if_neg Bool.false_ne_true, appendBytes_faultless env bytes world faultless]

/-- A write without a fault that makes the active file a backup. -/
theorem writeBytes_keeps (attached : world.Attached) (faultless : env.verdicts = .faultless)
    (due : rotationDue env bytes world.sink = true) (keeps : 0 < world.sink.maxBackups) :
    (writeBytes env bytes world).1 =
      { sink := { restart world.sink env world.disk.fresh with size := bytes.length },
        disk := ((shifted world.sink .faultless world.disk).create world.sink.path
          env.reopened).append world.disk.fresh bytes env.written } := by
  have moves : Moves world.sink env.verdicts world.disk 0 := by
    constructor
    · rw [faultless]
      rfl
    · rw [slotPath_zero, attached]
      exact Option.some_ne_none _
  have rotated := rotate_of_keeps env world keeps (by rw [faultless]; rfl)
  rw [if_pos moves, if_pos (by rw [faultless]; rfl)] at rotated
  rw [writeBytes, if_pos due, rotated]
  dsimp only
  rw [appendBytes_faultless env bytes _ faultless, faultless]
  simp [restart]

/-- A write without a fault that empties the active file. -/
theorem writeBytes_truncates (attached : world.Attached) (faultless : env.verdicts = .faultless)
    (due : rotationDue env bytes world.sink = true) (truncates : world.sink.maxBackups = 0) :
    (writeBytes env bytes world).1 =
      { sink := { restart world.sink env world.sink.file with size := bytes.length },
        disk := (world.disk.update world.sink.file
          { content := [], modified := env.reopened }).append world.sink.file bytes
            env.written } := by
  have rotated := rotate_of_truncates env world truncates (by rw [faultless]; rfl)
  have opens : env.verdicts.reopen = true := by rw [faultless]; rfl
  rw [Disk.openTruncate, if_pos opens, attached] at rotated
  rw [writeBytes, if_pos due, rotated]
  dsimp only
  rw [appendBytes_faultless env bytes _ faultless]
  simp [restart]

end

/-- Opening without a fault where the sink is attached only reads the file. -/
theorem openWith_attached {env : OpenEnv} (faultless : env.Faultless) {world : World}
    (attached : world.Attached) (maxSize maxBackups : Nat) (interval : RotationInterval) :
    openWith world.sink.path maxSize maxBackups interval env world.disk =
      (.ok {
        path := world.sink.path, file := world.sink.file, maxSize, maxBackups,
        size := (world.disk.inodes world.sink.file).content.length, interval,
        intervalStart := intervalStartFor
          (some (world.disk.inodes world.sink.file).modified) interval env.checked },
        world.disk) := by
  obtain ⟨createDir, openFile, sized, dated⟩ := faultless
  rw [openWith, if_pos createDir, Disk.openAppend, if_pos openFile, attached]
  simp [sized, dated]

/-- A sink that was opened without a fault knows the size and the slot of its
file, which was there or is new. -/
theorem sink_of_openWith {env : OpenEnv} (faultless : env.Faultless) {path : Text}
    {maxSize maxBackups : Nat} {interval : RotationInterval} {disk : Volume} {world : World}
    (opened : openWith path maxSize maxBackups interval env disk = (.ok world.sink, world.disk)) :
    world.sink = {
        path, file := world.sink.file, maxSize, maxBackups,
        size := (world.disk.inodes world.sink.file).content.length, interval,
        intervalStart := intervalStartFor
          (some (world.disk.inodes world.sink.file).modified) interval env.checked } ∧
      (disk.links path = some world.sink.file ∧ world.disk = disk ∨
        world.disk = disk.create path env.opened ∧ world.sink.file = disk.fresh) := by
  obtain ⟨createDir, openFile, sized, dated⟩ := faultless
  rw [openWith, if_pos createDir, Disk.openAppend, if_pos openFile, sized, dated] at opened
  cases linked : disk.links path with
  | some file =>
      rw [linked] at opened
      obtain ⟨sink, disk_eq⟩ := Prod.mk.inj opened
      rw [← Except.ok.inj sink, ← disk_eq]
      exact ⟨rfl, Or.inl ⟨rfl, rfl⟩⟩
  | none =>
      rw [linked] at opened
      obtain ⟨sink, disk_eq⟩ := Prod.mk.inj opened
      rw [← Except.ok.inj sink, ← disk_eq]
      exact ⟨rfl, Or.inr ⟨rfl, rfl⟩⟩

namespace Logged

variable (env : WriteEnv) (bytes : Bytes) (logged : Logged)

/-- The record is appended to the active file. -/
abbrev extend : Logged where
  world := {
    sink := { logged.world.sink with size := logged.world.sink.size + bytes.length },
    disk := logged.world.disk.append logged.world.sink.file bytes env.written }
  journal := logged.journal.write logged.world.sink.file env.written bytes

/-- The active file becomes a backup, and the record begins a new one. -/
abbrev keep : Logged where
  world := {
    sink := { restart logged.world.sink env logged.world.disk.fresh with size := bytes.length },
    disk := ((shifted logged.world.sink .faultless logged.world.disk).create
      logged.world.sink.path env.reopened).append logged.world.disk.fresh bytes env.written }
  journal := (logged.journal.keep logged.world.sink.file).write logged.world.disk.fresh
    env.written bytes

/-- The active file is emptied, and the record begins it. -/
abbrev truncate : Logged where
  world := {
    sink := { restart logged.world.sink env logged.world.sink.file with size := bytes.length },
    disk := (logged.world.disk.update logged.world.sink.file
      { content := [], modified := env.reopened }).append logged.world.sink.file bytes
        env.written }
  journal := (logged.journal.truncate logged.world.sink.file).write logged.world.sink.file
    env.written bytes

end Logged

/-- What a write without a fault does. -/
theorem logStep_write_cases {logged next : Logged} {env : WriteEnv} {bytes : Bytes}
    (attached : logged.world.Attached) (free : env.verdicts = .faultless)
    (stepped : logStep logged (.write env bytes) = some next) :
    (rotationDue env bytes logged.world.sink = false ∧ next = logged.extend env bytes) ∨
    (0 < logged.world.sink.maxBackups ∧ next = logged.keep env bytes) ∨
    (logged.world.sink.maxBackups = 0 ∧ next = logged.truncate env bytes) := by
  obtain rfl := Option.some.inj stepped
  cases due : rotationDue env bytes logged.world.sink with
  | false =>
      left
      rw [writeBytes_calm env bytes free due, Journal.rotate, due]
      exact ⟨rfl, rfl⟩
  | true =>
      right
      rcases Nat.eq_zero_or_pos logged.world.sink.maxBackups with truncates | keeps
      · right
        have none : ¬0 < logged.world.sink.maxBackups := by omega
        rw [writeBytes_truncates env bytes attached free due truncates, Journal.rotate, due,
          if_pos rfl, if_neg none]
        exact ⟨truncates, rfl⟩
      · left
        rw [writeBytes_keeps env bytes attached free due keeps, Journal.rotate, due,
          if_pos rfl, if_pos keeps]
        exact ⟨keeps, rfl⟩

/-- The event meets no fault. -/
def Event.Free : Event → Prop
  | .write env _ => env.verdicts = .faultless
  | .reopen _ _ _ env => env.Faultless

/-- What the journal says about the files, in a run that began in `first`. -/
structure Journaled (first : World) (logged : Logged) : Prop where
  attached : logged.world.Attached
  unused : ∀ ino, logged.world.disk.fresh ≤ ino → logged.journal.written ino = []
  /-- A file holds what it held at first, unless it is new or was emptied, and
  then the records of the journal. -/
  accounted : ∀ ino, ∃ base, (base = [] ∨ base = (first.disk.inodes ino).content) ∧
    (logged.world.disk.inodes ino).content = base ++ logged.journal.bytes ino

theorem journaled_first {first : World} (attached : first.Attached) :
    Journaled first first.logged where
  attached := attached
  unused _ _ := rfl
  accounted ino := ⟨(first.disk.inodes ino).content, Or.inr rfl, (List.append_nil _).symm⟩

theorem Journal.bytes_write (journal : Journal) (file ino : Nat) (now : Instant) (bytes : Bytes) :
    (journal.write file now bytes).bytes ino =
      if ino = file then journal.bytes ino ++ bytes else journal.bytes ino := by
  unfold Journal.bytes Journal.write
  by_cases same : ino = file
  · subst same
    simp
  · simp [same]

theorem Journal.bytes_keep (journal : Journal) (file ino : Nat) :
    (journal.keep file).bytes ino = journal.bytes ino :=
  rfl

theorem Journal.bytes_truncate (journal : Journal) (file ino : Nat) :
    (journal.truncate file).bytes ino = if ino = file then [] else journal.bytes ino := by
  unfold Journal.bytes Journal.truncate
  by_cases same : ino = file
  · subst same
    simp
  · simp [same]

/-- The file of an attached sink is in use. -/
theorem World.Attached.file_lt {world : World} (attached : world.Attached) :
    world.sink.file < world.disk.fresh :=
  world.disk.linked_lt attached

/-- A record is appended to a file, in the journal as on the disk. -/
theorem journaled_append {first : World} {sink : FileSink} {disk : Volume} {journal : Journal}
    {file : Nat} (now : Instant) (bytes : Bytes) (isFile : sink.file = file)
    (attached : disk.links sink.path = some file)
    (unused : ∀ ino, disk.fresh ≤ ino → journal.written ino = [])
    (accounted : ∀ ino, ∃ base, (base = [] ∨ base = (first.disk.inodes ino).content) ∧
      (disk.inodes ino).content = base ++ journal.bytes ino) :
    Journaled first {
      world := { sink, disk := disk.append file bytes now },
      journal := journal.write file now bytes } := by
  subst isFile
  have inUse := disk.linked_lt attached
  constructor
  · rw [World.Attached, Disk.links_append]
    exact attached
  · intro ino beyond
    rw [Disk.fresh_append] at beyond
    have other : ino ≠ sink.file := Nat.ne_of_gt (Nat.lt_of_lt_of_le inUse beyond)
    exact (journal.written_write_of_ne other _ _).trans (unused ino beyond)
  · intro ino
    obtain ⟨base, origin, content⟩ := accounted ino
    refine ⟨base, origin, ?_⟩
    rw [Disk.content_append, Journal.bytes_write]
    split
    · rw [content, List.append_assoc]
    · exact content

section

variable {first : World} {logged next : Logged} (env : WriteEnv) (bytes : Bytes)
  (journaled : Journaled first logged)

include journaled

theorem Journaled.extend : Journaled first (logged.extend env bytes) := by
  apply journaled_append
  · rfl
  · exact journaled.attached
  · exact journaled.unused
  · exact journaled.accounted

theorem Journaled.keep : Journaled first (logged.keep env bytes) := by
  have none : logged.journal.bytes logged.world.disk.fresh = [] := by
    rw [Journal.bytes, journaled.unused _ (Nat.le_refl _)]
    rfl
  apply journaled_append
  · rfl
  · simp [Disk.create, restart]
  · intro ino beyond
    rw [Disk.fresh_create, fresh_shifted] at beyond
    exact journaled.unused ino (Nat.le_of_succ_le beyond)
  · intro ino
    rw [Journal.bytes_keep, Disk.inodes_create, inodes_shifted, fresh_shifted]
    by_cases new : ino = logged.world.disk.fresh
    · refine ⟨[], Or.inl rfl, ?_⟩
      subst new
      simp [none]
    · rw [Function.update_of_ne new]
      exact journaled.accounted ino

theorem Journaled.truncate : Journaled first (logged.truncate env bytes) := by
  apply journaled_append
  · rfl
  · exact journaled.attached
  · intro ino beyond
    have other : ino ≠ logged.world.sink.file :=
      Nat.ne_of_gt (Nat.lt_of_lt_of_le journaled.attached.file_lt beyond)
    exact (Journal.written_truncate_of_ne _ other).trans (journaled.unused ino beyond)
  · intro ino
    rw [Journal.bytes_truncate, Disk.inodes_update]
    by_cases emptied : ino = logged.world.sink.file
    · refine ⟨[], Or.inl rfl, ?_⟩
      subst emptied
      simp
    · rw [if_neg emptied, Function.update_of_ne emptied]
      exact journaled.accounted ino

theorem Journaled.write (free : env.verdicts = .faultless)
    (stepped : logStep logged (.write env bytes) = some next) : Journaled first next := by
  rcases logStep_write_cases journaled.attached free stepped with
    ⟨_, rfl⟩ | ⟨_, rfl⟩ | ⟨_, rfl⟩
  · exact journaled.extend env bytes
  · exact journaled.keep env bytes
  · exact journaled.truncate env bytes

end

/-- What a reopening without a fault does: the sink reads the file it has. -/
theorem logStep_reopen_eq_some {logged next : Logged} {maxSize maxBackups : Nat}
    {interval : RotationInterval} {env : OpenEnv} (attached : logged.world.Attached)
    (free : env.Faultless)
    (stepped : logStep logged (.reopen maxSize maxBackups interval env) = some next) :
    next = {
      world :=
        { sink :=
            { path := logged.world.sink.path, file := logged.world.sink.file, maxSize, maxBackups,
              size := (logged.world.disk.inodes logged.world.sink.file).content.length, interval,
              intervalStart := intervalStartFor
                (some (logged.world.disk.inodes logged.world.sink.file).modified) interval
                  env.checked },
          disk := logged.world.disk },
      journal := logged.journal } := by
  have opened := openWith_attached free attached maxSize maxBackups interval
  simp only [logStep, step, opened, Option.map_some] at stepped
  exact (Option.some.inj stepped).symm

theorem Journaled.step {first : World} {logged next : Logged} {event : Event}
    (journaled : Journaled first logged) (free : event.Free)
    (stepped : logStep logged event = some next) : Journaled first next := by
  cases event with
  | write env bytes => exact journaled.write env bytes free stepped
  | reopen maxSize maxBackups interval env =>
      obtain rfl := logStep_reopen_eq_some journaled.attached free stepped
      exact ⟨journaled.attached, journaled.unused, journaled.accounted⟩

/-- An event without a fault has a next state. -/
theorem exists_logStep {logged : Logged} (attached : logged.world.Attached) {event : Event}
    (free : event.Free) : ∃ next, logStep logged event = some next := by
  cases event with
  | write env bytes => exact ⟨_, rfl⟩
  | reopen maxSize maxBackups interval env =>
      have opened := openWith_attached free attached maxSize maxBackups interval
      simp only [logStep, step, opened]
      exact ⟨_, rfl⟩

end XosLog.Rotation
