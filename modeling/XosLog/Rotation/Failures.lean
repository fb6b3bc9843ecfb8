import XosLog.Rotation.Slots
import XosLog.Transition.Run

/-!
# Failing writes and the backups

A failed rotation is retried from scratch by the next write, and every retry
drops the oldest backup and shifts the others again.  Whether a sequence of
failing writes keeps the files it started with is decided step by step: each
shift must not discard one of them.
-/

namespace XosLog.Rotation

open FileSystem Transition

section

variable (world : World)

/-- The inode is that of a file in one of the slots. -/
def World.Keeps (ino : Nat) : Prop :=
  ∃ k ≤ world.sink.maxBackups, world.disk.links (slotPath world.sink.path k) = some ino

/-- The file holds bytes and is not the oldest backup. -/
def World.Protects (ino : Nat) : Prop :=
  (world.disk.inodes ino).content ≠ [] ∧
    ∃ k < world.sink.maxBackups, world.disk.links (slotPath world.sink.path k) = some ino

/-- Everything that a world's slots hold, except the oldest backup, is still held
in the slots of a later one. -/
def BackupsKept (later : World) : Prop :=
  ∀ ino, world.Protects ino →
    later.Keeps ino ∧ (world.disk.inodes ino).content <+: (later.disk.inodes ino).content

/-- Shifting the backups discards what is in a slot: the oldest backup is removed,
or the file stays where it is while the one from below is renamed over it. -/
def Discards (verdicts : Verdicts) (k : Nat) : Prop :=
  (k = world.sink.maxBackups ∧ verdicts.remove = true) ∨
    (0 < k ∧ ¬ (k < world.sink.maxBackups ∧ verdicts.rename k = true) ∧
      Moves world.sink verdicts world.disk (k - 1))

instance (verdicts : Verdicts) (k : Nat) : Decidable (Discards world verdicts k) :=
  inferInstanceAs (Decidable (_ ∨ _))

/-- If the write shifts the backups, it discards none of the given files. -/
def Spares (kept : Nat → Prop) (call : WriteEnv × Bytes) : Prop :=
  ReachesShift call.1 call.2 world → ∀ k ≤ world.sink.maxBackups, ∀ ino, kept ino →
    world.disk.links (slotPath world.sink.path k) = some ino →
      ¬ Discards world call.1.verdicts k

end

/-- A write that fails. -/
def failingWrite : Step World (WriteEnv × Bytes) :=
  fun world call =>
    match writeBytes call.1 call.2 world with
    | (after, .error _) => some after
    | (_, .ok ()) => none

theorem failingWrite_eq_some {world after : World} {call : WriteEnv × Bytes}
    (failed : failingWrite world call = some after) :
    (writeBytes call.1 call.2 world).1 = after := by
  unfold failingWrite at failed
  generalize writeBytes call.1 call.2 world = written at failed ⊢
  obtain ⟨reached, error | ok⟩ := written
  · exact Option.some.inj failed
  · contradiction

/-! ## One write -/

section

variable (env : WriteEnv) (bytes : Bytes) {world : World}

/-- Whatever a shift leaves in a slot was in that slot or in the one below. -/
theorem links_shifted_origin (keeps : 0 < world.sink.maxBackups) (verdicts : Verdicts) {k ino : Nat}
    (inside : k ≤ world.sink.maxBackups)
    (linked : (shifted world.sink verdicts world.disk).links (slotPath world.sink.path k) =
      some ino) :
    ∃ j ≤ world.sink.maxBackups, world.disk.links (slotPath world.sink.path j) = some ino ∧
      ¬ Discards world verdicts j := by
  cases k with
  | zero =>
      rw [slotPath_zero, links_shifted_zero world.sink verdicts world.disk keeps] at linked
      split at linked
      · contradiction
      · refine ⟨0, Nat.zero_le _, linked, ?_⟩
        rintro (⟨last, _⟩ | ⟨positive, _⟩)
        · exact Nat.ne_of_lt keeps last
        · exact Nat.lt_irrefl 0 positive
  | succ k =>
      rw [links_shifted_succ world.sink verdicts world.disk inside] at linked
      split_ifs at linked with moves gone removed
      · refine ⟨k, Nat.le_of_lt inside, linked, ?_⟩
        rintro (⟨last, _⟩ | ⟨_, stays, _⟩)
        · exact Nat.ne_of_lt inside last
        · exact stays ⟨inside, moves.1⟩
      · refine ⟨k + 1, inside, linked, ?_⟩
        rintro (⟨last, works⟩ | ⟨_, _, overwritten⟩)
        · exact removed ⟨works, last⟩
        · exact moves overwritten

/-- What a shift does not discard stays in the slots. -/
theorem keeps_of_not_discards (verdicts : Verdicts) {k ino : Nat}
    (keeps : 0 < world.sink.maxBackups) (inside : k ≤ world.sink.maxBackups)
    (linked : world.disk.links (slotPath world.sink.path k) = some ino)
    (spared : ¬ Discards world verdicts k) :
    ∃ j ≤ world.sink.maxBackups,
      (shifted world.sink verdicts world.disk).links (slotPath world.sink.path j) = some ino := by
  have present : world.disk.links (slotPath world.sink.path k) ≠ none := by simp [linked]
  by_cases moves : k < world.sink.maxBackups ∧ verdicts.rename k = true
  · have moved : Moves world.sink verdicts world.disk k := ⟨moves.2, present⟩
    refine ⟨k + 1, moves.1, ?_⟩
    rw [links_shifted_succ world.sink verdicts world.disk moves.1, if_pos moved, linked]
  · have stays : ¬ (k < world.sink.maxBackups ∧ Moves world.sink verdicts world.disk k) :=
      fun moved => moves ⟨moved.1, moved.2.1⟩
    refine ⟨k, inside, ?_⟩
    cases k with
    | zero =>
        rw [slotPath_zero, links_shifted_zero world.sink verdicts world.disk keeps,
          if_neg fun moved => stays ⟨keeps, moved⟩]
        exact linked
    | succ k =>
        have untouched : ¬ Moves world.sink verdicts world.disk k := fun overwritten =>
          spared (.inr ⟨Nat.succ_pos k, moves, overwritten⟩)
        have notRemoved : ¬ (verdicts.remove = true ∧ k + 1 = world.sink.maxBackups) :=
          fun removed => spared (.inl ⟨removed.2, removed.1⟩)
        rw [links_shifted_succ world.sink verdicts world.disk inside, if_neg untouched,
          if_neg stays, if_neg notRemoved, linked]

/-- An old file is in the slots after a write exactly when it was there and the
write did not discard it. -/
theorem keeps_writeBytes_iff (keeps : 0 < world.sink.maxBackups) {ino : Nat}
    (old : ino < world.disk.fresh) :
    (writeBytes env bytes world).1.Keeps ino ↔
      ∃ k ≤ world.sink.maxBackups, world.disk.links (slotPath world.sink.path k) = some ino ∧
        ¬ (ReachesShift env bytes world ∧ Discards world env.verdicts k) := by
  unfold World.Keeps
  rw [writeBytes_maxBackups, writeBytes_path]
  by_cases reaches : ReachesShift env bytes world
  · have noNewFile : ∀ k, (rotate env world).1.disk.links (slotPath world.sink.path k) =
        some ino ↔ (shifted world.sink env.verdicts world.disk).links
          (slotPath world.sink.path k) = some ino := by
      intro k
      rw [links_rotate env world keeps reaches.2]
      split
      · rename_i created
        have vacated := links_shifted_zero world.sink env.verdicts world.disk keeps
        rw [if_pos created.2.1] at vacated
        rw [created.1, slotPath_zero, vacated]
        refine iff_of_false (fun new => ?_) (fun absent => ?_)
        · exact Nat.ne_of_lt old (Option.some.inj new).symm
        · contradiction
      · rfl
    simp only [links_writeBytes_of_reaches env bytes world reaches, noNewFile, reaches, true_and]
    constructor
    · rintro ⟨k, inside, linked⟩
      exact links_shifted_origin keeps env.verdicts inside linked
    · rintro ⟨k, inside, linked, spared⟩
      exact keeps_of_not_discards env.verdicts keeps inside linked spared
  · simp only [links_writeBytes_of_not_reaches env bytes world reaches, reaches, false_and,
      not_false_eq_true, and_true]

end

/-! ## Sequences of failing writes -/

section

variable {world target : World} {calls : List (WriteEnv × Bytes)}

/-- Failing writes only ever extend a file. -/
theorem content_prefix_run (keeps : 0 < world.sink.maxBackups) {ino : Nat}
    (old : ino < world.disk.fresh) (ran : run failingWrite world calls = some target) :
    (world.disk.inodes ino).content <+: (target.disk.inodes ino).content := by
  induction calls generalizing world with
  | nil =>
      cases ran
      exact List.prefix_rfl
  | cons call calls ih =>
      obtain ⟨next, failed, ran⟩ := (run_cons_eq_some failingWrite).mp ran
      have written := failingWrite_eq_some failed
      subst written
      refine (content_prefix_writeBytes call.1 call.2 world keeps old).trans (ih ?_ ?_ ran)
      · rwa [writeBytes_maxBackups]
      · exact Nat.lt_of_lt_of_le old (fresh_le_writeBytes call.1 call.2 world keeps)

/-- A file that has left the slots does not return. -/
theorem not_keeps_of_run (keeps : 0 < world.sink.maxBackups) {ino : Nat}
    (old : ino < world.disk.fresh) (lost : ¬ world.Keeps ino)
    (ran : run failingWrite world calls = some target) : ¬ target.Keeps ino := by
  induction calls generalizing world with
  | nil =>
      cases ran
      exact lost
  | cons call calls ih =>
      obtain ⟨next, failed, ran⟩ := (run_cons_eq_some failingWrite).mp ran
      have written := failingWrite_eq_some failed
      subst written
      refine ih ?_ ?_ ?_ ran
      · rwa [writeBytes_maxBackups]
      · exact Nat.lt_of_lt_of_le old (fresh_le_writeBytes call.1 call.2 world keeps)
      · rw [keeps_writeBytes_iff call.1 call.2 keeps old]
        rintro ⟨k, inside, linked, _⟩
        exact lost ⟨k, inside, linked⟩

/-- Failing writes keep a set of files exactly when each of them spares the set. -/
theorem keeps_run_iff (keeps : 0 < world.sink.maxBackups) {kept : Nat → Prop}
    (present : ∀ ino, kept ino → world.Keeps ino)
    (ran : run failingWrite world calls = some target) :
    (∀ ino, kept ino → target.Keeps ino) ↔
      AllSteps failingWrite (fun later call => Spares later kept call) world calls := by
  induction calls generalizing world with
  | nil =>
      cases ran
      exact iff_of_true present trivial
  | cons call calls ih =>
      obtain ⟨next, failed, ran⟩ := (run_cons_eq_some failingWrite).mp ran
      have written := failingWrite_eq_some failed
      have old : ∀ ino, kept ino → ino < world.disk.fresh := by
        intro ino member
        obtain ⟨k, _, linked⟩ := present ino member
        exact world.disk.linked_lt linked
      have nextKeeps : 0 < next.sink.maxBackups := by
        rwa [← written, writeBytes_maxBackups]
      have spares : Spares world kept call ↔ ∀ ino, kept ino → next.Keeps ino := by
        rw [← written]
        constructor
        · intro spared ino member
          obtain ⟨k, inside, linked⟩ := present ino member
          refine (keeps_writeBytes_iff call.1 call.2 keeps (old ino member)).mpr
            ⟨k, inside, linked, ?_⟩
          rintro ⟨reaches, discards⟩
          exact spared reaches k inside ino member linked discards
        · intro stays reaches k inside ino member linked discards
          obtain ⟨j, _, elsewhere, spared⟩ :=
            (keeps_writeBytes_iff call.1 call.2 keeps (old ino member)).mp (stays ino member)
          have same := slotPath_injective _ (world.disk.one_name elsewhere linked)
          exact spared ⟨reaches, same ▸ discards⟩
      constructor
      · intro stays
        have stayed : ∀ ino, kept ino → next.Keeps ino := by
          intro ino member
          by_contra lost
          have nextOld : ino < next.disk.fresh := Nat.lt_of_lt_of_le (old ino member)
            (written ▸ fresh_le_writeBytes call.1 call.2 world keeps)
          exact not_keeps_of_run nextKeeps nextOld lost ran (stays ino member)
        constructor
        · exact spares.mpr stayed
        · intro other otherFailed
          rw [failed] at otherFailed
          cases otherFailed
          exact (ih nextKeeps stayed ran).mp stays
      · rintro ⟨spared, later⟩
        exact (ih nextKeeps (spares.mp spared) ran).mpr (later next failed)

/-! ## The result -/

/-- A sequence of failing writes keeps what the slots held before it, the oldest
backup excepted, exactly when none of its shifts discards one of those files. -/
theorem backupsKept_iff (keeps : 0 < world.sink.maxBackups)
    (ran : run failingWrite world calls = some target) :
    BackupsKept world target ↔
      AllSteps failingWrite (fun later call => Spares later world.Protects call) world calls := by
  have present : ∀ ino, world.Protects ino → world.Keeps ino := by
    rintro ino ⟨_, k, inside, linked⟩
    exact ⟨k, Nat.le_of_lt inside, linked⟩
  rw [← keeps_run_iff keeps present ran]
  constructor
  · exact fun kept ino member => (kept ino member).1
  · intro stays ino member
    have ⟨_, k, _, linked⟩ := member
    exact ⟨stays ino member, content_prefix_run keeps (world.disk.linked_lt linked) ran⟩

end

/-- A disk with an active file and two backups. -/
def seededDisk : Volume :=
  let active : Volume := (Disk.empty.create "a".toList 0).append 0 [1] 0
  let backup : Volume := (active.create "a.1".toList 0).append 1 [2] 0
  (backup.create "a.2".toList 0).append 2 [3] 0

/-- A sink opened on that disk, whose next write is to rotate. -/
def seededWorld : World where
  sink :=
    { path := "a".toList, file := 0, maxSize := 1, maxBackups := 2, size := 1,
      interval := .never, intervalStart := none }
  disk := seededDisk

/-- A write during which the file cannot be reopened, or nothing goes wrong. -/
def rotatingCall (reopen : Bool) : WriteEnv × Bytes :=
  ({ checked := 0, reopened := 0, rotated := 0, written := 0,
     verdicts :=
      { flush := true, remove := true, rename := fun _ => true, reopen, write := none } }, [4])

/-- The world after the given writes. -/
def afterCalls (calls : List (WriteEnv × Bytes)) : World :=
  calls.foldl (fun world call => (writeBytes call.1 call.2 world).1) seededWorld

example : (List.range 3).map (fun k => (afterCalls [rotatingCall false]).disk.read
    (slotPath "a".toList k)) = [none, some [1], some [2]] := by
  decide +kernel

theorem seeded_opened : ∃ env disk, openWith "a".toList 1 2 .never env disk =
    (.ok seededWorld.sink, seededWorld.disk) :=
  ⟨{ createDir := true, openFile := true, sized := true, dated := true, opened := 0,
     checked := 0 }, seededDisk, rfl⟩

/-- Once the active file is gone, a retry that meets no fault at all loses the
backup that a first failure moved to the last slot. -/
theorem retry_loses :
    ¬ BackupsKept seededWorld (afterCalls [rotatingCall false, rotatingCall true]) := by
  intro kept
  have protects : seededWorld.Protects 1 := ⟨by decide +kernel, 1, by decide, by decide +kernel⟩
  obtain ⟨k, inside, linked⟩ := (kept 1 protects).1
  have lost : ∀ k ≤ 2, (afterCalls [rotatingCall false, rotatingCall true]).disk.links
      (slotPath "a".toList k) ≠ some 1 := by
    decide +kernel
  exact lost k inside linked

theorem backupsKept_iff_seeded :
    BackupsKept seededWorld (afterCalls [rotatingCall false]) ∧
      ¬ AllSteps failingWrite (fun later call => Spares later seededWorld.Protects call)
        seededWorld [rotatingCall false, rotatingCall true] := by
  constructor
  · have failed : run failingWrite seededWorld [rotatingCall false] =
        some (afterCalls [rotatingCall false]) := rfl
    refine (backupsKept_iff (by decide) failed).mpr
      ⟨fun _ k inside ino member linked => ?_, fun _ _ => trivial⟩
    obtain ⟨_, j, below, alsoLinked⟩ := member
    have spared : ∀ j < 2, ¬ Discards seededWorld (rotatingCall false).1.verdicts j := by
      decide +kernel
    have same := slotPath_injective _ (seededWorld.disk.one_name linked alsoLinked)
    exact same ▸ spared j below
  · intro spares
    exact retry_loses ((backupsKept_iff (by decide) rfl).mpr spares)

/-- Backups erode under repeated failures. -/
theorem not_forall_backupsKept :
    ¬ ∀ (path : Text) (maxSize maxBackups : Nat) (interval : RotationInterval) (env : OpenEnv)
      (disk : Volume) (world target : World) (calls : List (WriteEnv × Bytes)),
      1 ≤ maxBackups →
      openWith path maxSize maxBackups interval env disk = (.ok world.sink, world.disk) →
      run failingWrite world calls = some target → BackupsKept world target := by
  intro always
  obtain ⟨env, disk, opened⟩ := seeded_opened
  exact retry_loses (always _ _ _ _ env disk seededWorld _
    [rotatingCall false, rotatingCall true] (by decide) opened rfl)

end XosLog.Rotation
