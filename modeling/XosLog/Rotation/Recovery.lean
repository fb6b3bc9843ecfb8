import XosLog.Rotation.Failures
import XosLog.Rotation.Preservation

/-!
# After a failure

What a sink can still do once the filesystem works again depends on one thing
that a failed rotation may have left behind: whether there is a file at the
path.  What a rotation that met failures has lost is decided by the renames that
failed while the file from below was moved.
-/

namespace XosLog.Rotation

open FileSystem Transition

/-! ## The active file -/

/-- The sink writes to the file at its path, or a rotation that keeps backups
left no file there. -/
def World.Settled (world : World) : Prop :=
  world.Attached ∨ 0 < world.sink.maxBackups ∧ world.disk.links world.sink.path = none

/-- A sink that was opened is attached, whatever else went wrong. -/
theorem attached_openWith {path : Text} {maxSize maxBackups : Nat} {interval : RotationInterval}
    {env : OpenEnv} {disk : Volume} {world : World}
    (opened : openWith path maxSize maxBackups interval env disk = (.ok world.sink, world.disk)) :
    world.Attached := by
  unfold openWith Disk.openAppend at opened
  by_cases createDir : env.createDir = true
  · rw [if_pos createDir] at opened
    by_cases openFile : env.openFile = true
    · rw [if_pos openFile] at opened
      cases linked : disk.links path with
      | some file =>
          rw [linked] at opened
          obtain ⟨sink, same⟩ := Prod.mk.inj opened
          rw [World.Attached, ← same, ← Except.ok.inj sink]
          exact linked
      | none =>
          rw [linked] at opened
          obtain ⟨sink, same⟩ := Prod.mk.inj opened
          rw [World.Attached, ← same, ← Except.ok.inj sink]
          exact if_pos rfl
    · rw [if_neg openFile] at opened
      cases (Prod.mk.inj opened).1
  · rw [if_neg createDir] at opened
    cases (Prod.mk.inj opened).1

/-- The rotation renames the active file and cannot open a new one. -/
def Vacates (env : WriteEnv) (world : World) : Prop :=
  env.verdicts.flush = true ∧ 0 < world.sink.maxBackups ∧
    Moves world.sink env.verdicts world.disk 0 ∧ env.verdicts.reopen = false

/-- What a rotation leaves at the path: a new file, what was there, or nothing. -/
theorem rotate_outcomes (env : WriteEnv) (world : World) :
    (rotate env world).1.Attached ∨ (rotate env world).1.sink = world.sink ∧
      ((rotate env world).1.disk.links world.sink.path = world.disk.links world.sink.path ∨
        Vacates env world ∧ (rotate env world).1.disk.links world.sink.path = none) := by
  cases outcome : (rotate env world).2 with
  | ok => exact Or.inl (attached_rotate env world outcome)
  | error error =>
      apply Or.inr
      by_cases flushed : env.verdicts.flush = true
      · rcases Nat.eq_zero_or_pos world.sink.maxBackups with truncates | keeps
        · rw [rotate_of_truncates env world truncates flushed] at outcome ⊢
          split at outcome
          · exact ⟨rfl, Or.inl rfl⟩
          · cases outcome
        · have vacated := links_shifted_zero world.sink env.verdicts world.disk keeps
          rw [rotate_of_keeps env world keeps flushed] at outcome ⊢
          by_cases moves : Moves world.sink env.verdicts world.disk 0
          · rw [if_pos moves] at outcome vacated ⊢
            cases reopened : env.verdicts.reopen with
            | true =>
                rw [if_pos reopened] at outcome
                cases outcome
            | false =>
                rw [if_neg Bool.false_ne_true]
                exact ⟨rfl, Or.inr ⟨⟨flushed, keeps, moves, reopened⟩, vacated⟩⟩
          · rw [if_neg moves] at vacated ⊢
            exact ⟨rfl, Or.inl vacated⟩
      · rw [rotate_of_not_flushed env world flushed]
        exact ⟨rfl, Or.inl rfl⟩

theorem settled_rotate (env : WriteEnv) {world : World} (settled : world.Settled) :
    (rotate env world).1.Settled := by
  rcases rotate_outcomes env world with attached | ⟨sink, same | ⟨vacates, gone⟩⟩
  · exact Or.inl attached
  · rw [World.Settled, World.Attached, sink, same]
    exact settled
  · rw [World.Settled, sink]
    exact Or.inr ⟨vacates.2.1, gone⟩

theorem settled_appendBytes (env : WriteEnv) (bytes : Bytes) {world : World}
    (settled : world.Settled) : (appendBytes env bytes world).1.Settled := by
  rcases settled with attached | ⟨keeps, gone⟩
  · exact Or.inl (attached_appendBytes env bytes attached)
  · apply Or.inr
    rw [appendBytes_maxBackups, appendBytes_links, appendBytes_path]
    exact ⟨keeps, gone⟩

theorem settled_writeBytes (env : WriteEnv) (bytes : Bytes) {world : World}
    (settled : world.Settled) : (writeBytes env bytes world).1.Settled := by
  rcases writeBytes_cases env bytes world with ⟨_, same⟩ | ⟨_, ⟨_, _, same⟩ | ⟨_, same⟩⟩
  · rw [same]
    exact settled_appendBytes env bytes settled
  · rw [same]
    exact settled_rotate env settled
  · rw [same]
    exact settled_appendBytes env bytes (settled_rotate env settled)

/-- A sink that is opened again is on its path, whatever was there before. -/
theorem attached_reopen {world next : World} {maxSize maxBackups : Nat}
    {interval : RotationInterval} {env : OpenEnv}
    (stepped : step world (.reopen maxSize maxBackups interval env) = some next) :
    next.Attached := by
  simp only [step] at stepped
  split at stepped
  · rename_i sink disk opened
    obtain rfl := Option.some.inj stepped
    exact attached_openWith opened
  · cases stepped

theorem settled_step {world next : World} {event : Event} (settled : world.Settled)
    (stepped : step world event = some next) : next.Settled := by
  cases event with
  | write env bytes =>
      obtain rfl := Option.some.inj stepped
      exact settled_writeBytes env bytes settled
  | reopen maxSize maxBackups interval env => exact Or.inl (attached_reopen stepped)

/-- The write makes a rotation that leaves no file at the path. -/
def Strands (world : World) : Event → Prop
  | .write env bytes => rotationDue env bytes world.sink = true ∧ Vacates env world
  | .reopen .. => False

theorem attached_rotate_of_not_vacates (env : WriteEnv) {world : World}
    (attached : world.Attached) (opens : ¬Vacates env world) : (rotate env world).1.Attached := by
  rcases rotate_outcomes env world with attached | ⟨sink, same | ⟨vacates, _⟩⟩
  · exact attached
  · rw [World.Attached, sink, same]
    exact attached
  · exact absurd vacates opens

theorem attached_step {world next : World} {event : Event} (attached : world.Attached)
    (opens : ¬Strands world event) (stepped : step world event = some next) :
    next.Attached := by
  cases event with
  | write env bytes =>
      obtain rfl := Option.some.inj stepped
      rcases writeBytes_cases env bytes world with ⟨_, same⟩ | ⟨due, rotated⟩
      · rw [same]
        exact attached_appendBytes env bytes attached
      · have rotatedAttached := attached_rotate_of_not_vacates env attached fun vacates =>
          opens ⟨due, vacates⟩
        rcases rotated with ⟨_, _, same⟩ | ⟨_, same⟩
        · rw [same]
          exact rotatedAttached
        · rw [same]
          exact attached_appendBytes env bytes rotatedAttached
  | reopen maxSize maxBackups interval env => exact attached_reopen stepped

/-! ## The next write -/

/-- The write succeeds and its record is at the end of the file at the path. -/
def Recovers (env : WriteEnv) (bytes : Bytes) (world : World) : Prop :=
  (writeBytes env bytes world).2 = .ok () ∧
    ∃ before, (writeBytes env bytes world).1.disk.read world.sink.path = some (before ++ bytes)

theorem recovers_of_attached {env : WriteEnv} {world : World} (bytes : Bytes)
    (attached : world.Attached) (faultless : env.verdicts = .faultless) :
    Recovers env bytes world := by
  constructor
  · exact (writeBytes_faultless env bytes attached faultless).1
  · have content : world.disk.read world.sink.path =
        some (world.disk.inodes world.sink.file).content := by
      rw [Disk.read, attached]
      rfl
    have written := read_writeBytes_faultless env bytes attached faultless
    rw [content] at written
    split at written
    · exact ⟨[], written.1⟩
    · exact ⟨_, written.1⟩

/-- Without a file at the path the next rotation cannot rename it, and a write
that does not rotate goes to a file that has another name. -/
theorem not_recovers_of_gone {env : WriteEnv} {world : World} (bytes : Bytes)
    (keeps : 0 < world.sink.maxBackups) (gone : world.disk.links world.sink.path = none)
    (faultless : env.verdicts = .faultless) : ¬Recovers env bytes world := by
  rintro ⟨succeeds, before, found⟩
  have unmoved : ¬Moves world.sink env.verdicts world.disk 0 := fun moves => moves.2 gone
  rcases writeBytes_cases env bytes world with ⟨_, same⟩ | ⟨_, ⟨_, _, same⟩ | ⟨rotated, _⟩⟩
  · rw [same, Disk.read, appendBytes_links, gone] at found
    cases found
  · rw [same] at succeeds
    cases succeeds
  · rw [rotate_of_keeps env world keeps (by rw [faultless]; rfl), if_neg unmoved] at rotated
    cases rotated

/-- After any history the next write without a fault recovers exactly when there
is a file at the path, and there is one when no write of the history stranded the
sink. -/
theorem recovers_iff {path : Text} {maxSize maxBackups : Nat} {interval : RotationInterval}
    {opening : OpenEnv} {disk : Volume} {first target : World} {events : List Event}
    (opened : openWith path maxSize maxBackups interval opening disk =
      (.ok first.sink, first.disk))
    (ran : run step first events = some target) {env : WriteEnv}
    (faultless : env.verdicts = .faultless) (bytes : Bytes) :
    (Recovers env bytes target ↔ target.disk.links target.sink.path ≠ none) ∧
      (AllSteps step (fun world event => ¬Strands world event) first events →
        Recovers env bytes target) := by
  have start := attached_openWith opened
  constructor
  · have settled : target.Settled := run_invariant settled_step (Or.inl start) ran
    rcases settled with attached | ⟨keeps, gone⟩
    · apply iff_of_true (recovers_of_attached bytes attached faultless)
      rw [attached]
      exact Option.some_ne_none _
    · exact iff_of_false (not_recovers_of_gone bytes keeps gone faultless) fun found => found gone
  · intro opens
    have attached : target.Attached := run_invariant_of_allSteps attached_step start opens ran
    exact recovers_of_attached bytes attached faultless

theorem recovers_iff_seeded :
    Recovers (rotatingCall true).1 [5] (afterCalls [rotatingCall true]) ↔
      (afterCalls [rotatingCall true]).disk.links "a".toList ≠ none := by
  obtain ⟨_, _, opened⟩ := seeded_opened
  have ran : run step seededWorld [.write (rotatingCall true).1 (rotatingCall true).2] =
      some (afterCalls [rotatingCall true]) := rfl
  exact (recovers_iff opened ran rfl [5]).1

/-- One failure to reopen the file is enough: every later rotation fails to
rename the missing file. -/
theorem not_forall_recovers :
    ¬∀ (path : Text) (maxSize maxBackups : Nat) (interval : RotationInterval) (opening : OpenEnv)
      (disk : Volume) (first target : World) (events : List Event) (env : WriteEnv)
      (bytes : Bytes),
      openWith path maxSize maxBackups interval opening disk = (.ok first.sink, first.disk) →
      run step first events = some target → env.verdicts = .faultless →
        Recovers env bytes target := by
  intro always
  obtain ⟨env, disk, opened⟩ := seeded_opened
  have stuck := always _ _ _ _ env disk seededWorld (afterCalls [rotatingCall false])
    [.write (rotatingCall false).1 (rotatingCall false).2] (rotatingCall true).1 [4] opened rfl rfl
  have failed : (writeBytes (rotatingCall true).1 [4] (afterCalls [rotatingCall false])).2 =
      .error .rename := by
    decide +kernel
  rw [Recovers, failed] at stuck
  cases stuck.1

/-! ## What a rotation loses -/

section

variable (env : WriteEnv) (world : World)

/-- The content of every file of a slot below the last one is afterwards the
content of a backup. -/
def Retained : Prop :=
  ∀ k < world.sink.maxBackups, ∀ content,
    world.disk.read (slotPath world.sink.path k) = some content →
      ∃ j, 1 ≤ j ∧ j ≤ world.sink.maxBackups ∧
        (rotate env world).1.disk.read (slotPath world.sink.path j) = some content

/-- The content of every such file is in a slot that the shift does not discard. -/
def Covered : Prop :=
  ∀ k < world.sink.maxBackups, ∀ content,
    world.disk.read (slotPath world.sink.path k) = some content →
      ∃ j ≤ world.sink.maxBackups,
        world.disk.read (slotPath world.sink.path j) = some content ∧
          ¬Discards world env.verdicts j

variable {env world}

/-- A rotation that keeps backups succeeds when it is flushed, the active file is
renamed and a new one opened. -/
theorem rotated_of_keeps (keeps : 0 < world.sink.maxBackups)
    (rotated : (rotate env world).2 = .ok ()) :
    env.verdicts.flush = true ∧ Moves world.sink env.verdicts world.disk 0 ∧
      env.verdicts.reopen = true := by
  by_cases flushed : env.verdicts.flush = true
  · rw [rotate_of_keeps env world keeps flushed] at rotated
    split_ifs at rotated with moves reopened
    exact ⟨flushed, moves, reopened⟩
  · rw [rotate_of_not_flushed env world flushed] at rotated
    cases rotated

/-- The backups after a rotation that succeeded. -/
theorem read_rotated (keeps : 0 < world.sink.maxBackups)
    (rotated : (rotate env world).2 = .ok ()) {j : Nat} (positive : 1 ≤ j) :
    (rotate env world).1.disk.read (slotPath world.sink.path j) =
      (shifted world.sink env.verdicts world.disk).read (slotPath world.sink.path j) := by
  rw [read_rotate env world keeps (rotated_of_keeps keeps rotated).1]
  exact if_neg fun new => Nat.ne_of_gt positive new.1

/-- A rotation that succeeded lost nothing but the oldest backup exactly when
every content was also in a slot that is not discarded: one whose own rename
did not fail while the file below it was moved. -/
theorem retained_iff (keeps : 1 ≤ world.sink.maxBackups)
    (rotated : (rotate env world).2 = .ok ()) : Retained env world ↔ Covered env world := by
  constructor
  · intro retained k below content found
    obtain ⟨j, positive, inside, after⟩ := retained k below content found
    rw [read_rotated keeps rotated positive] at after
    obtain ⟨ino, linked, same⟩ := Option.map_eq_some_iff.mp after
    obtain ⟨i, within, before, spared⟩ := links_shifted_origin keeps env.verdicts inside linked
    refine ⟨i, within, ?_, spared⟩
    rw [Disk.read, before, ← same, inodes_shifted]
    rfl
  · intro covered k below content found
    obtain ⟨j, inside, same, spared⟩ := covered k below content found
    obtain ⟨ino, linked, rfl⟩ := Option.map_eq_some_iff.mp same
    obtain ⟨i, within, after⟩ := keeps_of_not_discards env.verdicts keeps inside linked spared
    have positive : 1 ≤ i := by
      by_contra! zero
      obtain rfl : i = 0 := by omega
      rw [slotPath_zero, links_shifted_zero world.sink env.verdicts world.disk keeps,
        if_pos (rotated_of_keeps keeps rotated).2.1] at after
      cases after
    refine ⟨i, positive, within, ?_⟩
    rw [read_rotated keeps rotated positive, Disk.read, after, inodes_shifted]
    rfl

end

/-- A write whose rotation cannot rename the first backup. -/
def unshiftedCall : WriteEnv :=
  { checked := 0, reopened := 0, rotated := 0, written := 0,
    verdicts := { flush := true, remove := true, rename := fun k => k ≠ 1, reopen := true,
                  write := none } }

theorem retained_iff_seeded :
    Retained unshiftedCall seededWorld ↔ Covered unshiftedCall seededWorld :=
  retained_iff (by decide) (by decide +kernel)

/-- The first backup stays where it is and is overwritten by the active file. -/
theorem not_forall_retained :
    ¬∀ (env : WriteEnv) (world : World), 1 ≤ world.sink.maxBackups →
      (rotate env world).2 = .ok () → Retained env world := by
  intro always
  have retained := always unshiftedCall seededWorld (by decide) (by decide +kernel)
  obtain ⟨j, positive, inside, found⟩ := retained 1 (by decide) [2] (by decide +kernel)
  have lost : ∀ j ≤ 2, (rotate unshiftedCall seededWorld).1.disk.read (slotPath "a".toList j) ≠
      some [2] := by
    decide +kernel
  exact lost j inside found

end XosLog.Rotation
