import XosLog.Rotation.Journal
import XosLog.NumberedShelf

/-!
# The files of a sink as a shelf

While no filesystem call fails, the active file and its numbered backups are a
shelf: a rotation pushes an empty file with the number of backups as its limit,
and a write appends to the newest one.
-/

namespace XosLog.Rotation

open FileSystem Transition

/-- The contents of the active file and of every backup number. -/
def World.shelf (world : World) : NumberedShelf Bytes :=
  fun k => world.disk.read (slotPath world.sink.path k)

section

variable (env : WriteEnv) {world : World}

theorem shelf_active (attached : world.Attached) : world.shelf 0 ≠ none := by
  rw [World.shelf, slotPath_zero, Disk.read, attached]
  exact Option.some_ne_none _

/-- A backup is not the active file. -/
theorem links_backup_ne (attached : world.Attached) (k : Nat) :
    world.disk.links (slotPath world.sink.path (k + 1)) ≠ some world.sink.file := by
  intro linked
  have same : slotPath world.sink.path (k + 1) = slotPath world.sink.path 0 :=
    world.disk.one_name linked attached
  exact Nat.succ_ne_zero k (slotPath_injective _ same)

/-- A rotation leaves the backups beyond its limit alone. -/
theorem read_rotate_beyond (attached : world.Attached) (faultless : env.verdicts = .faultless)
    {k : Nat} (beyond : world.sink.maxBackups < k) :
    (rotate env world).1.disk.read (slotPath world.sink.path k) =
      world.disk.read (slotPath world.sink.path k) := by
  have flushed : env.verdicts.flush = true := by rw [faultless]; rfl
  obtain ⟨j, rfl⟩ : ∃ j, k = j + 1 := Nat.exists_eq_add_one_of_ne_zero (Nat.ne_zero_of_lt beyond)
  rcases Nat.eq_zero_or_pos world.sink.maxBackups with truncates | keeps
  · have reopened : env.verdicts.reopen = true := by rw [faultless]; rfl
    rw [rotate_of_truncates env world truncates flushed, Disk.openTruncate, if_pos reopened,
      attached]
    exact Disk.read_update_of_ne world.disk (links_backup_ne attached j) _
  · rw [read_rotate env world keeps flushed, if_neg fun new => Nat.succ_ne_zero j new.1, Disk.read,
      links_shifted_beyond world.sink env.verdicts world.disk beyond, inodes_shifted]
    rfl

/-- A rotation pushes an empty file. -/
theorem shelf_rotate (attached : world.Attached) (faultless : env.verdicts = .faultless) :
    (rotate env world).1.shelf = NumberedShelf.push world.sink.maxBackups [] world.shelf := by
  obtain ⟨_, _, emptied, moved⟩ := rotate_faultless env attached faultless
  funext k
  rw [World.shelf, rotate_path]
  cases k with
  | zero => exact emptied
  | succ k =>
      by_cases below : k < world.sink.maxBackups
      · rw [NumberedShelf.push_succ_of_lt _ _ _ below]
        exact moved k below
      · have beyond : world.sink.maxBackups < k + 1 := Nat.lt_succ_of_le (Nat.not_lt.mp below)
        rw [NumberedShelf.push_of_limit_lt _ _ _ beyond]
        exact read_rotate_beyond env attached faultless beyond

theorem shelf_appendBytes (bytes : Bytes) (attached : world.Attached)
    (faultless : env.verdicts = .faultless) :
    (appendBytes env bytes world).1.shelf = NumberedShelf.renew (· ++ bytes) world.shelf := by
  have wholeRecord := appended_faultless env bytes faultless
  funext k
  rw [World.shelf, appendBytes_path, read_appendBytes env bytes attached, wholeRecord]
  cases k with
  | zero => rfl
  | succ k => rfl

/-- What a write does to the shelf. -/
theorem shelf_writeBytes (bytes : Bytes) (attached : world.Attached)
    (faultless : env.verdicts = .faultless) :
    (writeBytes env bytes world).1.shelf =
      if rotationDue env bytes world.sink then
        NumberedShelf.push world.sink.maxBackups bytes world.shelf
      else NumberedShelf.renew (· ++ bytes) world.shelf := by
  rcases writeBytes_cases env bytes world with
    ⟨calm, same⟩ | ⟨due, ⟨error, failed, _⟩ | ⟨rotated, same⟩⟩
  · rw [same, calm, if_neg Bool.false_ne_true, shelf_appendBytes env bytes attached faultless]
  · rw [(rotate_faultless env attached faultless).1] at failed
    contradiction
  · rw [same, due, if_pos rfl,
      shelf_appendBytes env bytes (attached_rotate env world rotated) faultless,
      shelf_rotate env attached faultless, NumberedShelf.renew_push, List.nil_append]

end

/-- Reopening an attached sink without a fault keeps it on its file. -/
theorem step_reopen_eq_some {world next : World} {maxSize maxBackups : Nat}
    {interval : RotationInterval} {env : OpenEnv} (attached : world.Attached)
    (free : env.Faultless)
    (stepped : step world (.reopen maxSize maxBackups interval env) = some next) :
    next.Attached ∧ next.shelf = world.shelf := by
  have opened := openWith_attached free attached maxSize maxBackups interval
  simp only [step, opened] at stepped
  obtain rfl := Option.some.inj stepped
  exact ⟨attached, rfl⟩

/-- What an event means for the shelf. -/
def shelve (sink : FileSink) : Event → NumberedShelf Bytes → NumberedShelf Bytes
  | .write env bytes, shelf =>
      if rotationDue env bytes sink then NumberedShelf.push sink.maxBackups bytes shelf
      else NumberedShelf.renew (· ++ bytes) shelf
  | .reopen .., shelf => shelf

/-- The files of an attached sink follow the shelf. -/
theorem shelf_step {world next : World} {event : Event} (attached : world.Attached)
    (free : event.Free) (stepped : step world event = some next) :
    next.Attached ∧ next.shelf = shelve world.sink event world.shelf := by
  cases event with
  | write env bytes =>
      rw [← Option.some.inj stepped]
      exact ⟨(writeBytes_faultless env bytes attached free).2.1,
        shelf_writeBytes env bytes attached free⟩
  | reopen maxSize maxBackups interval env => exact step_reopen_eq_some attached free stepped

/-- Opening puts an empty file at place zero when there is none. -/
theorem shelf_openWith {env : OpenEnv} (faultless : env.Faultless) {path : Text}
    {maxSize maxBackups : Nat} {interval : RotationInterval} {disk : Volume} {world : World}
    (opened : openWith path maxSize maxBackups interval env disk = (.ok world.sink, world.disk))
    (k : Nat) :
    world.shelf (k + 1) = disk.read (slotPath path (k + 1)) := by
  obtain ⟨sink, origin⟩ := sink_of_openWith faultless opened
  have samePath : world.sink.path = path := congrArg FileSink.path sink
  rw [World.shelf, samePath]
  rcases origin with ⟨_, same⟩ | ⟨created, _⟩
  · rw [same]
  · have distinct : slotPath path (k + 1) ≠ path := fun same =>
      Nat.succ_ne_zero k (@slotPath_injective path (k + 1) 0 same)
    rw [created, Disk.read_create_of_ne disk distinct]

end XosLog.Rotation
