import XosLog.Rotation.SizeBound

/-!
# Failed appends

`write_all` can fail after it put some bytes of a record into the file.  The
sink counts no byte of a failed append and removes none, so the torn beginning
of the record stays in the file, uncounted, and the next record is appended to
it unless a rotation comes first.
-/

namespace XosLog.Rotation

open FileSystem Transition

/-- The tracked size is the length of the active file. -/
def World.Counted (world : World) : Prop :=
  world.sink.size = world.active.length

/-- What the file holds when the append of a call begins. -/
def kept (env : WriteEnv) (bytes : Bytes) (world : World) : Bytes :=
  if rotationDue env bytes world.sink then [] else world.active

section

variable (env : WriteEnv) (bytes : Bytes) (world : World)

theorem active_restart {disk : Volume} {file : Nat} (empty : (disk.inodes file).content = []) :
    ({ sink := restart world.sink env file, disk } : World).active = [] ∧
      ({ sink := restart world.sink env file, disk } : World).Counted := by
  constructor
  · exact empty
  · rw [World.Counted, World.active, restart, empty]
    rfl

/-- A rotation leaves an empty active file with nothing counted. -/
theorem active_rotate (rotated : (rotate env world).2 = .ok ()) :
    (rotate env world).1.active = [] ∧ (rotate env world).1.Counted := by
  by_cases flushed : env.verdicts.flush = true
  · rcases Nat.eq_zero_or_pos world.sink.maxBackups with truncates | keeps
    · rw [rotate_of_truncates env world truncates flushed] at rotated ⊢
      unfold Disk.openTruncate at rotated ⊢
      by_cases opens : env.verdicts.reopen = true
      · rw [if_pos opens]
        cases linked : world.disk.links world.sink.path with
        | some ino =>
            apply active_restart
            simp [Disk.update]
        | none =>
            apply active_restart
            simp [Disk.create]
      · rw [if_neg opens] at rotated
        contradiction
    · rw [rotate_of_keeps env world keeps flushed] at rotated ⊢
      split_ifs at rotated ⊢
      apply active_restart
      simp [Disk.create]
  · rw [rotate_of_not_flushed env world flushed] at rotated
    contradiction

/-- A rotation that fails touches neither the active file nor the count. -/
theorem active_rotate_error {error : IoError} (failed : (rotate env world).2 = .error error) :
    (rotate env world).1.active = world.active ∧
      (rotate env world).1.sink.size = world.sink.size := by
  by_cases flushed : env.verdicts.flush = true
  · rcases Nat.eq_zero_or_pos world.sink.maxBackups with truncates | keeps
    · rw [rotate_of_truncates env world truncates flushed] at failed ⊢
      split at failed
      · exact ⟨rfl, rfl⟩
      · contradiction
    · rw [rotate_of_keeps env world keeps flushed] at failed ⊢
      have shift : ({ world with
          disk := shifted world.sink env.verdicts world.disk } : World).active =
          world.active := by
        rw [World.active, inodes_shifted]
        rfl
      split_ifs at failed ⊢
      · exact ⟨shift, rfl⟩
      · exact ⟨shift, rfl⟩
  · rw [rotate_of_not_flushed env world flushed]
    exact ⟨rfl, rfl⟩

theorem active_appendBytes :
    (appendBytes env bytes world).1.active = world.active ++ appended env bytes := by
  have content : ∀ written : Bytes,
      ((world.disk.append world.sink.file written env.written).inodes world.sink.file).content =
        world.active ++ written := by
    intro written
    rw [Disk.content_append, if_pos rfl, World.active]
  unfold appendBytes appended
  cases env.verdicts.write with
  | none => exact content bytes
  | some count => exact content (bytes.take count)

end

section

variable {env : WriteEnv} {bytes : Bytes} {world : World}

/-- A call fails before its append, or appends to what it kept. -/
theorem writeBytes_stages (env : WriteEnv) (bytes : Bytes) (world : World) :
    (∃ error, error ≠ .write ∧ (writeBytes env bytes world).2 = .error error ∧
      (writeBytes env bytes world).1.active = world.active ∧
      (world.Counted → (writeBytes env bytes world).1.Counted)) ∨
    ∃ middle : World, writeBytes env bytes world = appendBytes env bytes middle ∧
      middle.active = kept env bytes world ∧ (world.Counted → middle.Counted) := by
  rcases writeBytes_cases env bytes world with ⟨calm, same⟩ | ⟨due, failed | ⟨rotated, same⟩⟩
  · refine Or.inr ⟨world, same, ?_, id⟩
    rw [kept, calm, if_neg Bool.false_ne_true]
  · obtain ⟨error, failed, same⟩ := failed
    obtain ⟨active, size⟩ := active_rotate_error env world failed
    refine Or.inl ⟨error, rotate_error_ne_write env world failed, ?_, ?_, ?_⟩
    · rw [same]
    · rw [same, active]
    · intro counted
      rw [same, World.Counted, active, size]
      exact counted
  · obtain ⟨empty, counted⟩ := active_rotate env world rotated
    refine Or.inr ⟨_, same, ?_, fun _ => counted⟩
    rw [kept, if_pos due, empty]

/-- A call that fails before its append leaves the file alone. -/
theorem writeBytes_failed {next : World} {error : IoError} (counted : world.Counted)
    (failed : writeBytes env bytes world = (next, .error error)) (before : error ≠ .write) :
    next.active = world.active ∧ next.Counted := by
  rcases writeBytes_stages env bytes world with ⟨_, _, _, same, keepsCount⟩ | ⟨middle, same, -, -⟩
  · rw [failed] at same keepsCount
    exact ⟨same, keepsCount counted⟩
  · rw [same] at failed
    unfold appendBytes at failed
    split at failed
    · cases failed
    · obtain ⟨-, wrong⟩ := Prod.mk.inj failed
      exact absurd (Except.error.inj wrong).symm before

/-- After a successful call the file ends with the record. -/
theorem writeBytes_ok {next : World} (succeeded : writeBytes env bytes world = (next, .ok ())) :
    next.active = kept env bytes world ++ bytes := by
  rcases writeBytes_stages env bytes world with
    ⟨error, -, failed, -⟩ | ⟨middle, same, begins, -⟩
  · rw [succeeded] at failed
    contradiction
  · rw [same] at succeeded
    have whole : appended env bytes = bytes := by
      unfold appendBytes at succeeded
      unfold appended
      cases all : env.verdicts.write with
      | none => rfl
      | some count =>
          rw [all] at succeeded
          cases succeeded
    have content := active_appendBytes env bytes middle
    rw [succeeded, whole, begins] at content
    exact content

/-- After a failed append the file ends with what was put there, and only what
was there before is counted. -/
theorem writeBytes_torn {next : World} (counted : world.Counted)
    (failed : writeBytes env bytes world = (next, .error .write)) :
    next.active = kept env bytes world ++ appended env bytes ∧
      next.sink.size = (kept env bytes world).length := by
  rcases writeBytes_stages env bytes world with
    ⟨error, other, before, -⟩ | ⟨middle, same, begins, keepsCount⟩
  · rw [failed] at before
    exact absurd (Except.error.inj before).symm other
  · rw [same] at failed
    have content := active_appendBytes env bytes middle
    rw [failed, begins] at content
    refine ⟨content, ?_⟩
    rw [← begins, ← keepsCount counted]
    unfold appendBytes at failed
    cases all : env.verdicts.write with
    | none =>
        rw [all] at failed
        cases failed
    | some count =>
        rw [all] at failed
        cases failed
        rfl

end

/-! ## What follows a failed append -/

/-- One more call that fails without putting a byte of its record into the
file. -/
def retry : Step World (WriteEnv × Bytes)
  | world, (env, bytes) =>
      match writeBytes env bytes world with
      | (_, .ok ()) => none
      | (next, .error error) =>
          if appendedBy env bytes (.error error) = [] then some next else none

/-- The count is right, and the record of the next successful call, after any
calls that fail in between, begins the file or follows the bytes that were there
before the append. -/
structure Intact (whole : Bytes) (world : World) : Prop where
  counted : world.Counted
  framed : ∀ calls later, run retry world calls = some later →
    ∀ env bytes next, writeBytes env bytes later = (next, .ok ()) →
      ∃ front, next.active = front ++ bytes ∧ (front = [] ∨ front = whole)

/-- Calls that put nothing into the file keep it whole and counted. -/
theorem retry_keeps {whole : Bytes} {world next : World} {call : WriteEnv × Bytes}
    (held : world.Counted ∧ (world.active = [] ∨ world.active = whole))
    (retried : retry world call = some next) :
    next.Counted ∧ (next.active = [] ∨ next.active = whole) := by
  obtain ⟨env, bytes⟩ := call
  obtain ⟨counted, active⟩ := held
  cases outcome : writeBytes env bytes world with
  | mk reached result =>
      cases result with
      | ok => simp [retry, outcome] at retried
      | error error =>
          simp only [retry, outcome, Option.ite_none_right_eq_some] at retried
          obtain ⟨nothing, same⟩ := retried
          obtain rfl := Option.some.inj same
          by_cases appending : error = .write
          · subst appending
            obtain ⟨content, size⟩ := writeBytes_torn counted outcome
            rw [appendedBy] at nothing
            rw [nothing, List.append_nil] at content
            rw [World.Counted, content, size, kept]
            refine ⟨rfl, ?_⟩
            split
            · exact Or.inl rfl
            · exact active
          · obtain ⟨same, counted⟩ := writeBytes_failed counted outcome appending
            rw [same]
            exact ⟨counted, active⟩

variable {env : WriteEnv} {bytes : Bytes} {world next : World}

/-- After a failed append the count is right and the next record begins at a
record boundary exactly when no byte of the record reached the file. -/
theorem intact_iff_nothing_appended (counted : world.Counted)
    (failed : writeBytes env bytes world = (next, .error .write)) :
    Intact (kept env bytes world) next ↔ appended env bytes = [] := by
  obtain ⟨content, size⟩ := writeBytes_torn counted failed
  constructor
  · intro intact
    have lengths := intact.counted
    rw [World.Counted, size, content, List.length_append] at lengths
    exact List.eq_nil_of_length_eq_zero (Nat.left_eq_add.mp lengths)
  · intro nothing
    rw [nothing, List.append_nil] at content
    have start : next.Counted ∧ (next.active = [] ∨ next.active = kept env bytes world) := by
      rw [World.Counted, size, content]
      exact ⟨rfl, Or.inr rfl⟩
    refine ⟨start.1, ?_⟩
    intro calls later ran env' bytes' final succeeded
    have preserved : ∀ {before after : World} {call : WriteEnv × Bytes},
        before.Counted ∧ (before.active = [] ∨ before.active = kept env bytes world) →
        retry before call = some after →
        after.Counted ∧ (after.active = [] ∨ after.active = kept env bytes world) := retry_keeps
    obtain ⟨-, active⟩ := run_invariant preserved start ran
    refine ⟨_, writeBytes_ok succeeded, ?_⟩
    unfold kept
    split
    · exact Or.inl rfl
    · exact active

/-- Without a rotation the next record continues the torn one. -/
theorem torn_precedes_next {later : World} {env' : WriteEnv} {record : Bytes}
    (counted : world.Counted) (failed : writeBytes env bytes world = (next, .error .write))
    (calm : rotationDue env' record next.sink = false)
    (succeeded : writeBytes env' record next = (later, .ok ())) :
    later.active = kept env bytes world ++ appended env bytes ++ record := by
  rw [writeBytes_ok succeeded, kept, calm, if_neg Bool.false_ne_true,
    (writeBytes_torn counted failed).1]

/-- A new sink without a size limit on an empty disk. -/
def emptyLog : World where
  sink := {
    path := "app.log".toList, file := 0, maxSize := 0, maxBackups := 1, size := 0,
    interval := .never, intervalStart := none }
  disk := FileSystem.Disk.empty.create "app.log".toList 0

/-- A call at the epoch whose append is cut off, if at all, after `cut` bytes. -/
def cutCall (cut : Option Nat) : WriteEnv :=
  { checked := 0, reopened := 0, rotated := 0, written := 0,
    verdicts := { Verdicts.faultless with write := cut } }

theorem intact_iff_nothing_appended_emptyLog :
    Intact (kept (cutCall (some 0)) [98, 99, 10] emptyLog)
        (writeBytes (cutCall (some 0)) [98, 99, 10] emptyLog).1 ↔
      appended (cutCall (some 0)) [98, 99, 10] = [] :=
  intact_iff_nothing_appended rfl rfl

/-- The second of three records is cut off after one byte: the third one
continues it, and the byte is not counted. -/
theorem torn_append_merges :
    ∃ first second third,
      writeBytes (cutCall none) [97, 10] emptyLog = (first, .ok ()) ∧ first.Counted ∧
      writeBytes (cutCall (some 1)) [98, 99, 10] first = (second, .error .write) ∧
      ¬ Intact (kept (cutCall (some 1)) [98, 99, 10] first) second ∧
      writeBytes (cutCall none) [100, 10] second = (third, .ok ()) ∧
      third.active = [97, 10, 98, 100, 10] ∧ third.sink.size = 4 := by
  refine ⟨_, _, _, rfl, rfl, rfl, ?_, rfl, rfl, rfl⟩
  intro intact
  have counted : 2 = 3 := intact.counted
  contradiction

end XosLog.Rotation
