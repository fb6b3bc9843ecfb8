import XosLog.Rotation.FileSink

/-!
# The slots of a file sink

Slot zero is the active file and slot `k` the `k`-th backup.  This module says
what a write does to the slots, whatever the environment does: shifting the
backups is a cascade of renames over the slots.
-/

namespace XosLog.Rotation

open FileSystem

/-- The path of a slot. -/
def slotPath (path : Text) : Nat → Text
  | 0 => path
  | k + 1 => backupPath path (k + 1)

@[simp]
theorem slotPath_zero (path : Text) : slotPath path 0 = path :=
  rfl

@[simp]
theorem slotPath_succ (path : Text) (k : Nat) : slotPath path (k + 1) = backupPath path (k + 1) :=
  rfl

theorem slotPath_of_pos (path : Text) {k : Nat} (positive : 0 < k) :
    slotPath path k = backupPath path k := by
  cases k with
  | zero => contradiction
  | succ k => rfl

theorem decimal_injective : Function.Injective Text.decimal := by
  intro first second same
  have read := congrArg (fun digits => Nat.ofDigitChars 10 digits 0) same
  simpa [Text.decimal, Nat.ofDigitChars_ten_toDigits] using read

/-- Different slots have different paths. -/
theorem slotPath_injective (path : Text) : Function.Injective (slotPath path) := by
  intro first second same
  have tail : ∀ k, backupPath path k ≠ path := by
    intro k equal
    have length := congrArg List.length equal
    simp [backupPath] at length
  cases first with
  | zero =>
      cases second with
      | zero => rfl
      | succ second => exact absurd same.symm (tail _)
  | succ first =>
      cases second with
      | zero => exact absurd same (tail _)
      | succ second =>
          have digits := List.append_cancel_left same
          exact decimal_injective (List.cons.inj digits).2

section

variable (sink : FileSink) (verdicts : Verdicts) (disk : Volume)

/-- The rename away from a slot takes effect. -/
abbrev Moves (k : Nat) : Prop :=
  disk.Moves (slotPath sink.path) verdicts.rename k

/-- The disk after dropping the oldest backup and shifting every slot. -/
def shifted : Volume :=
  (disk.tryRemove verdicts.remove (slotPath sink.path sink.maxBackups)).cascade
    (slotPath sink.path) verdicts.rename sink.maxBackups

theorem cascade_eq_shiftLoop (count : Nat) :
    disk.cascade (slotPath sink.path) verdicts.rename (count + 1) =
      (shiftLoop sink.path verdicts count disk).tryRename (verdicts.rename 0) sink.path
        (backupPath sink.path 1) := by
  induction count generalizing disk with
  | zero => rfl
  | succ count ih => exact ih _

@[simp]
theorem inodes_shifted : (shifted sink verdicts disk).inodes = disk.inodes := by
  simp [shifted]

@[simp]
theorem fresh_shifted : (shifted sink verdicts disk).fresh = disk.fresh := by
  simp [shifted]

/-- Removing the oldest backup concerns no slot below it. -/
theorem links_tryRemove_slot {k : Nat} :
    (disk.tryRemove verdicts.remove (slotPath sink.path sink.maxBackups)).links
        (slotPath sink.path k) =
      if verdicts.remove ∧ k = sink.maxBackups then none
      else disk.links (slotPath sink.path k) := by
  rw [Disk.links_tryRemove]
  simp only [(slotPath_injective sink.path).eq_iff]

theorem moves_tryRemove {k : Nat} (below : k < sink.maxBackups) :
    Moves sink verdicts
        (disk.tryRemove verdicts.remove (slotPath sink.path sink.maxBackups)) k ↔
      Moves sink verdicts disk k := by
  unfold Moves Disk.Moves
  rw [links_tryRemove_slot, if_neg fun removed => Nat.ne_of_lt below removed.2]

/-- What shifting leaves in slot zero. -/
theorem links_shifted_zero (keeps : 0 < sink.maxBackups) :
    (shifted sink verdicts disk).links sink.path =
      if Moves sink verdicts disk 0 then none else disk.links sink.path := by
  have cascaded := Disk.links_cascade_zero verdicts.rename (slotPath_injective sink.path) keeps
    (disk.tryRemove verdicts.remove (slotPath sink.path sink.maxBackups))
  simp only [moves_tryRemove sink verdicts disk keeps, links_tryRemove_slot,
    Nat.ne_of_lt keeps, and_false, if_false] at cascaded
  exact cascaded

/-- What shifting leaves in a backup slot: the file from below when that one
moves, else its own one unless it moves or is removed. -/
theorem links_shifted_succ {k : Nat} (inside : k < sink.maxBackups) :
    (shifted sink verdicts disk).links (slotPath sink.path (k + 1)) =
      if Moves sink verdicts disk k then disk.links (slotPath sink.path k)
      else if k + 1 < sink.maxBackups ∧ Moves sink verdicts disk (k + 1) then none
      else if verdicts.remove ∧ k + 1 = sink.maxBackups then none
      else disk.links (slotPath sink.path (k + 1)) := by
  have cascaded := Disk.links_cascade_succ verdicts.rename (slotPath_injective sink.path) inside
    (disk.tryRemove verdicts.remove (slotPath sink.path sink.maxBackups))
  simp only [moves_tryRemove sink verdicts disk inside, links_tryRemove_slot,
    Nat.ne_of_lt inside, and_false, if_false] at cascaded
  rw [shifted, cascaded]
  by_cases last : k + 1 < sink.maxBackups
  · simp only [moves_tryRemove sink verdicts disk last]
  · simp only [last, false_and]

/-- Shifting does not reach the slots beyond the oldest backup. -/
theorem links_shifted_beyond {k : Nat} (beyond : sink.maxBackups < k) :
    (shifted sink verdicts disk).links (slotPath sink.path k) =
      disk.links (slotPath sink.path k) := by
  have outside : ¬ (verdicts.remove = true ∧ k = sink.maxBackups) :=
    fun removed => Nat.ne_of_gt beyond removed.2
  rw [shifted, Disk.links_cascade verdicts.rename (slotPath_injective sink.path),
    if_neg fun moved => Nat.not_le.mpr beyond moved.2.1,
    if_neg fun moved => Nat.lt_asymm beyond moved.1, links_tryRemove_slot, if_neg outside]

theorem shiftLoop_links_path (count : Nat) (disk : Volume) :
    (shiftLoop sink.path verdicts count disk).links sink.path = disk.links sink.path := by
  have distinct := slotPath_injective sink.path
  induction count generalizing disk with
  | zero => rfl
  | succ count ih =>
      have fromSlot : sink.path ≠ backupPath sink.path (count + 1) := fun same =>
        absurd (@distinct 0 (count + 1) same) (by omega)
      have toSlot : sink.path ≠ backupPath sink.path (count + 2) := fun same =>
        absurd (@distinct 0 (count + 2) same) (by omega)
      rw [shiftLoop, ih, Disk.links_tryRename, if_neg toSlot, if_neg fromSlot, ite_self]

/-- Shifting succeeds exactly when the active file is renamed. -/
theorem shiftBackups_eq (keeps : 0 < sink.maxBackups) :
    shiftBackups sink verdicts disk =
      (shifted sink verdicts disk,
        if Moves sink verdicts disk 0 then .ok () else .error .rename) := by
  obtain ⟨count, isCount⟩ : ∃ count, sink.maxBackups = count + 1 :=
    ⟨sink.maxBackups - 1, by omega⟩
  have pruned : slotPath sink.path sink.maxBackups = backupPath sink.path sink.maxBackups :=
    slotPath_of_pos sink.path keeps
  have whole : shifted sink verdicts disk =
      (shiftLoop sink.path verdicts (sink.maxBackups - 1)
        (disk.tryRemove verdicts.remove (backupPath sink.path sink.maxBackups))).tryRename
        (verdicts.rename 0) sink.path (backupPath sink.path 1) := by
    rw [shifted, pruned, isCount, cascade_eq_shiftLoop, Nat.add_sub_cancel]
  have active : (shiftLoop sink.path verdicts (sink.maxBackups - 1)
      (disk.tryRemove verdicts.remove (backupPath sink.path sink.maxBackups))).links sink.path =
        disk.links sink.path := by
    rw [shiftLoop_links_path, ← pruned]
    have removed := links_tryRemove_slot sink verdicts disk (k := 0)
    rwa [if_neg fun same => Nat.ne_of_lt keeps same.2] at removed
  have moves : Moves sink verdicts disk 0 ↔ verdicts.rename 0 = true ∧
      (shiftLoop sink.path verdicts (sink.maxBackups - 1) (disk.tryRemove verdicts.remove
        (backupPath sink.path sink.maxBackups))).links sink.path ≠ none := by
    rw [active]
    rfl
  rw [whole]
  simp only [moves, shiftBackups, Disk.tryRename, Disk.rename]
  generalize shiftLoop sink.path verdicts (sink.maxBackups - 1) _ = looped
  by_cases effective : verdicts.rename 0 = true ∧ looped.links sink.path ≠ none
  · simp only [if_pos effective, Option.getD_some]
  · simp only [if_neg effective, Option.getD_none]

end

/-! ## Rotating -/

section

variable (env : WriteEnv) (world : World)

/-- A rotation that keeps backups shifts them; when the active file is renamed it
creates a new one. -/
theorem rotate_of_keeps (keeps : 0 < world.sink.maxBackups) (flushed : env.verdicts.flush = true) :
    rotate env world =
      if Moves world.sink env.verdicts world.disk 0 then
        if env.verdicts.reopen then
          ({ sink := restart world.sink env world.disk.fresh,
             disk := (shifted world.sink env.verdicts world.disk).create world.sink.path
               env.reopened }, .ok ())
        else ({ world with disk := shifted world.sink env.verdicts world.disk }, .error .openFile)
      else ({ world with disk := shifted world.sink env.verdicts world.disk }, .error .rename) := by
  simp only [rotate, if_pos flushed, if_pos keeps, shiftBackups_eq world.sink env.verdicts
    world.disk keeps]
  by_cases moves : Moves world.sink env.verdicts world.disk 0
  · have vacated := links_shifted_zero world.sink env.verdicts world.disk keeps
    rw [if_pos moves] at vacated
    simp only [if_pos moves, Disk.openAppend, vacated, fresh_shifted]
    by_cases reopened : env.verdicts.reopen = true
    · simp only [if_pos reopened]
    · simp only [if_neg reopened]
  · simp only [if_neg moves]

theorem rotate_of_not_flushed (failed : env.verdicts.flush ≠ true) :
    rotate env world = (world, .error .flush) := by
  simp only [rotate, if_neg failed]

/-- The links after a rotation. -/
theorem links_rotate (keeps : 0 < world.sink.maxBackups) (flushed : env.verdicts.flush = true)
    (k : Nat) :
    (rotate env world).1.disk.links (slotPath world.sink.path k) =
      if k = 0 ∧ Moves world.sink env.verdicts world.disk 0 ∧ env.verdicts.reopen then
        some world.disk.fresh
      else (shifted world.sink env.verdicts world.disk).links (slotPath world.sink.path k) := by
  rw [rotate_of_keeps env world keeps flushed]
  have isActive : slotPath world.sink.path k = world.sink.path ↔ k = 0 :=
    (slotPath_injective world.sink.path).eq_iff (b := 0)
  by_cases moves : Moves world.sink env.verdicts world.disk 0
  · by_cases reopened : env.verdicts.reopen = true
    · simp only [moves, reopened, if_true, and_true, Disk.create, fresh_shifted, isActive]
    · simp only [moves, reopened, if_true, and_false, if_false, Bool.false_eq_true]
  · simp only [moves, false_and, and_false, if_false]

/-- A rotation that keeps backups leaves the content of every inode alone. -/
theorem content_rotate (keeps : 0 < world.sink.maxBackups) {ino : Nat}
    (old : ino < world.disk.fresh) :
    ((rotate env world).1.disk.inodes ino).content = (world.disk.inodes ino).content := by
  by_cases flushed : env.verdicts.flush = true
  · rw [rotate_of_keeps env world keeps flushed]
    by_cases moves : Moves world.sink env.verdicts world.disk 0
    · by_cases reopened : env.verdicts.reopen = true
      · simp [moves, reopened, Disk.create, Nat.ne_of_lt old]
      · simp [moves, reopened]
    · simp [moves]
  · rw [rotate_of_not_flushed env world flushed]

theorem fresh_le_rotate (keeps : 0 < world.sink.maxBackups) :
    world.disk.fresh ≤ (rotate env world).1.disk.fresh := by
  by_cases flushed : env.verdicts.flush = true
  · rw [rotate_of_keeps env world keeps flushed]
    by_cases moves : Moves world.sink env.verdicts world.disk 0
    · by_cases reopened : env.verdicts.reopen = true
      · simp [moves, reopened, Disk.create]
      · simp [moves, reopened]
    · simp [moves]
  · rw [rotate_of_not_flushed env world flushed]

/-- A rotation that keeps no backups truncates the active file. -/
theorem rotate_of_truncates (truncates : world.sink.maxBackups = 0)
    (flushed : env.verdicts.flush = true) :
    rotate env world =
      match world.disk.openTruncate env.verdicts.reopen env.reopened world.sink.path with
      | none => (world, .error .openFile)
      | some (file, disk) => ({ sink := restart world.sink env file, disk }, .ok ()) := by
  have none : ¬ 0 < world.sink.maxBackups := Nat.not_lt.mpr (Nat.le_of_eq truncates)
  unfold rotate
  exact (if_pos flushed).trans (if_neg none)

/-- A rotation either leaves the sink alone or restarts it with a new file. -/
theorem rotate_sink :
    (rotate env world).1.sink = world.sink ∨
      ∃ file, (rotate env world).1.sink = restart world.sink env file := by
  by_cases flushed : env.verdicts.flush = true
  · rcases Nat.eq_zero_or_pos world.sink.maxBackups with truncates | keeps
    · rw [rotate_of_truncates env world truncates flushed]
      split
      · exact .inl rfl
      · exact .inr ⟨_, rfl⟩
    · rw [rotate_of_keeps env world keeps flushed]
      split_ifs
      · exact .inr ⟨_, rfl⟩
      · exact .inl rfl
      · exact .inl rfl
  · rw [rotate_of_not_flushed env world flushed]
    exact .inl rfl

@[simp]
theorem rotate_path : (rotate env world).1.sink.path = world.sink.path := by
  rcases rotate_sink env world with same | ⟨_, same⟩
  · rw [same]
  · rw [same]
    rfl

@[simp]
theorem rotate_maxBackups : (rotate env world).1.sink.maxBackups = world.sink.maxBackups := by
  rcases rotate_sink env world with same | ⟨_, same⟩
  · rw [same]
  · rw [same]
    rfl

end

/-! ## Writing -/

section

variable (env : WriteEnv) (bytes : Bytes) (world : World)

/-- The write reaches the shifting of the backups. -/
def ReachesShift : Prop :=
  rotationDue env bytes world.sink = true ∧ env.verdicts.flush = true

instance : Decidable (ReachesShift env bytes world) :=
  inferInstanceAs (Decidable (_ ∧ _))

@[simp]
theorem appendBytes_links : (appendBytes env bytes world).1.disk.links = world.disk.links := by
  unfold appendBytes
  split <;> exact Disk.links_append _ _ _ _

@[simp]
theorem appendBytes_path : (appendBytes env bytes world).1.sink.path = world.sink.path := by
  unfold appendBytes
  split <;> rfl

@[simp]
theorem appendBytes_maxBackups :
    (appendBytes env bytes world).1.sink.maxBackups = world.sink.maxBackups := by
  unfold appendBytes
  split <;> rfl

@[simp]
theorem appendBytes_fresh : (appendBytes env bytes world).1.disk.fresh = world.disk.fresh := by
  unfold appendBytes
  split <;> exact Disk.fresh_append _ _ _ _

/-- Appending only ever extends a file. -/
theorem content_prefix_appendBytes (ino : Nat) :
    (world.disk.inodes ino).content <+:
      ((appendBytes env bytes world).1.disk.inodes ino).content := by
  have extends_ : ∀ (written : Bytes), (world.disk.inodes ino).content <+:
      ((world.disk.append world.sink.file written env.written).inodes ino).content := by
    intro written
    rw [Disk.content_append]
    split
    · exact List.prefix_append _ _
    · exact List.prefix_rfl
  unfold appendBytes
  split <;> exact extends_ _

/-- A write is its rotation, when it is due, and then the append. -/
theorem writeBytes_cases :
    (rotationDue env bytes world.sink = false ∧
      writeBytes env bytes world = appendBytes env bytes world) ∨
    (rotationDue env bytes world.sink = true ∧
      ((∃ error, (rotate env world).2 = .error error ∧
          writeBytes env bytes world = ((rotate env world).1, .error error)) ∨
        ((rotate env world).2 = .ok () ∧
          writeBytes env bytes world = appendBytes env bytes (rotate env world).1))) := by
  unfold writeBytes
  cases rotationDue env bytes world.sink with
  | false => exact .inl ⟨rfl, rfl⟩
  | true =>
      refine .inr ⟨rfl, ?_⟩
      rw [if_pos rfl]
      rcases rotate env world with ⟨rotated, error | ok⟩
      · exact .inl ⟨error, rfl, rfl⟩
      · exact .inr ⟨rfl, rfl⟩

@[simp]
theorem writeBytes_path : (writeBytes env bytes world).1.sink.path = world.sink.path := by
  rcases writeBytes_cases env bytes world with ⟨_, same⟩ | ⟨_, ⟨_, _, same⟩ | ⟨_, same⟩⟩ <;>
    simp [same]

@[simp]
theorem writeBytes_maxBackups :
    (writeBytes env bytes world).1.sink.maxBackups = world.sink.maxBackups := by
  rcases writeBytes_cases env bytes world with ⟨_, same⟩ | ⟨_, ⟨_, _, same⟩ | ⟨_, same⟩⟩ <;>
    simp [same]

/-- A write that does not shift the backups changes no link. -/
theorem links_writeBytes_of_not_reaches (calm : ¬ ReachesShift env bytes world) :
    (writeBytes env bytes world).1.disk.links = world.disk.links := by
  rcases writeBytes_cases env bytes world with ⟨_, same⟩ | ⟨due, outcome⟩
  · rw [same, appendBytes_links]
  · have failed := rotate_of_not_flushed env world fun flushed => calm ⟨due, flushed⟩
    rw [failed] at outcome
    rcases outcome with ⟨_, _, same⟩ | ⟨ok, _⟩
    · rw [same]
    · contradiction

/-- A write that shifts the backups leaves the links of its rotation. -/
theorem links_writeBytes_of_reaches (reaches : ReachesShift env bytes world) :
    (writeBytes env bytes world).1.disk.links = (rotate env world).1.disk.links := by
  rcases writeBytes_cases env bytes world with ⟨calm, _⟩ | ⟨_, ⟨_, _, same⟩ | ⟨_, same⟩⟩
  · rw [reaches.1] at calm
    contradiction
  · rw [same]
  · rw [same, appendBytes_links]

/-- With backups, no write cuts anything off a file. -/
theorem content_prefix_writeBytes (keeps : 0 < world.sink.maxBackups) {ino : Nat}
    (old : ino < world.disk.fresh) :
    (world.disk.inodes ino).content <+:
      ((writeBytes env bytes world).1.disk.inodes ino).content := by
  rcases writeBytes_cases env bytes world with ⟨_, same⟩ | ⟨_, ⟨_, _, same⟩ | ⟨_, same⟩⟩
  · rw [same]
    exact content_prefix_appendBytes env bytes world ino
  · rw [same, content_rotate env world keeps old]
  · rw [same, ← content_rotate env world keeps old]
    exact content_prefix_appendBytes env bytes _ ino

theorem fresh_le_writeBytes (keeps : 0 < world.sink.maxBackups) :
    world.disk.fresh ≤ (writeBytes env bytes world).1.disk.fresh := by
  rcases writeBytes_cases env bytes world with ⟨_, same⟩ | ⟨_, ⟨_, _, same⟩ | ⟨_, same⟩⟩
  · rw [same, appendBytes_fresh]
  · rw [same]
    exact fresh_le_rotate env world keeps
  · rw [same, appendBytes_fresh]
    exact fresh_le_rotate env world keeps

end

end XosLog.Rotation
