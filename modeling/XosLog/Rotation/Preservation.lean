import XosLog.Archive
import XosLog.Rotation.Slots
import XosLog.Transition.Run

/-!
# Rotation preserves the log

While no call on an existing file fails, the slots of a sink are a bounded
archive of everything that was written: a write adds to the newest bin, and a
rotation gives up the oldest one.  A call that is interrupted between two of its
filesystem calls leaves the disk as if the remaining ones had failed.
-/

namespace XosLog.Rotation

open FileSystem Transition

/-- Every filesystem call succeeds. -/
def Verdicts.faultless : Verdicts :=
  { flush := true, remove := true, rename := fun _ => true, reopen := true, write := none }

/-- The first `count` filesystem calls of a write that keeps `maxBackups` backups
succeed and the others fail; if the last one is reached, `partial` bytes of the
record are written. -/
def Verdicts.stopped (maxBackups count written : Nat) : Verdicts where
  flush := 0 < count
  remove := 1 < count
  rename k := maxBackups + 1 - k < count
  reopen := maxBackups + 2 < count
  write := if maxBackups + 3 < count then none else some written

/-- Opening meets no fault. -/
def OpenEnv.Faultless (env : OpenEnv) : Prop :=
  env.createDir = true ∧ env.openFile = true ∧ env.sized = true ∧ env.dated = true

/-- The event meets no fault and keeps the number of backups. -/
def Event.Faultless (maxBackups : Nat) : Event → Prop
  | .write env _ => env.verdicts = .faultless
  | .reopen _ newMaxBackups _ env => newMaxBackups = maxBackups ∧ env.Faultless

/-- The records written by a sequence of events. -/
def records : List Event → List Bytes
  | [] => []
  | .write _ bytes :: events => bytes :: records events
  | .reopen .. :: events => records events

theorem records_cons (event : Event) (events : List Event) :
    records (event :: events) = records [event] ++ records events := by
  cases event <;> rfl

/-- The contents of the slots of a path, the active file first.  A missing file
has none. -/
def slotContents (path : Text) (maxBackups : Nat) (disk : Volume) : List Bytes :=
  (List.range (maxBackups + 1)).map fun k => (disk.read (slotPath path k)).getD []

namespace World

/-- The contents of the slots. -/
def slots (world : World) : List Bytes :=
  slotContents world.sink.path world.sink.maxBackups world.disk

/-- The open file of the sink is the one at its path. -/
def Attached (world : World) : Prop :=
  world.disk.links world.sink.path = some world.sink.file

theorem slots_ne_nil (world : World) : world.slots ≠ [] := by
  simp [slots, slotContents]

@[simp]
theorem length_slots (world : World) : world.slots.length = world.sink.maxBackups + 1 := by
  simp [slots, slotContents]

end World

/-! ## Shifting -/

section

variable (sink : FileSink) (verdicts : Verdicts) (disk : Volume)

theorem moves_iff (k : Nat) :
    Moves sink verdicts disk k ↔
      verdicts.rename k = true ∧ disk.read (slotPath sink.path k) ≠ none := by
  unfold Moves Disk.Moves Disk.read
  rw [ne_eq, ne_eq, Option.map_eq_none_iff]

theorem read_shifted_zero (keeps : 0 < sink.maxBackups) :
    (shifted sink verdicts disk).read sink.path =
      if Moves sink verdicts disk 0 then none else disk.read sink.path := by
  unfold Disk.read
  rw [links_shifted_zero sink verdicts disk keeps, inodes_shifted]
  split <;> rfl

theorem read_shifted_succ {k : Nat} (inside : k < sink.maxBackups) :
    (shifted sink verdicts disk).read (slotPath sink.path (k + 1)) =
      if Moves sink verdicts disk k then disk.read (slotPath sink.path k)
      else if k + 1 < sink.maxBackups ∧ Moves sink verdicts disk (k + 1) then none
      else if verdicts.remove ∧ k + 1 = sink.maxBackups then none
      else disk.read (slotPath sink.path (k + 1)) := by
  unfold Disk.read
  rw [links_shifted_succ sink verdicts disk inside, inodes_shifted]
  split_ifs <;> rfl

/-- When every call succeeds, every backup slot gets the file from below. -/
theorem read_shifted_faultless {k : Nat} (inside : k < sink.maxBackups) :
    (shifted sink .faultless disk).read (slotPath sink.path (k + 1)) =
      disk.read (slotPath sink.path k) := by
  rw [read_shifted_succ sink .faultless disk inside]
  simp only [moves_iff, Verdicts.faultless, true_and]
  by_cases present : disk.read (slotPath sink.path k) ≠ none
  · rw [if_pos present]
  · have absent : disk.read (slotPath sink.path k) = none := not_not.mp present
    rw [if_neg present, absent]
    split_ifs with moved removed
    · rfl
    · rfl
    · by_contra found
      rcases Nat.lt_or_eq_of_le (Nat.succ_le_of_lt inside) with below | last
      · exact moved ⟨below, found⟩
      · exact removed last

/-- When the shift stops before the slots below `cut`, those above it have moved. -/
theorem content_shifted_cut {cut k : Nat} (removes : verdicts.remove = true)
    (bounded : cut ≤ sink.maxBackups)
    (stops : ∀ k < sink.maxBackups, verdicts.rename k = true ↔ cut ≤ k)
    (inside : k < sink.maxBackups) :
    ((shifted sink verdicts disk).read (slotPath sink.path (k + 1))).getD [] =
      if k + 1 < cut then (disk.read (slotPath sink.path (k + 1))).getD []
      else if k + 1 = cut then []
      else (disk.read (slotPath sink.path k)).getD [] := by
  rw [read_shifted_succ sink verdicts disk inside]
  simp only [moves_iff, stops k inside, removes, true_and]
  by_cases unmoved : k + 1 < cut
  · have stays : ¬ verdicts.rename (k + 1) = true := by
      rw [stops (k + 1) (by omega)]
      omega
    rw [if_pos unmoved, if_neg (by omega), if_neg fun moved => stays moved.2.1,
      if_neg (by omega)]
  have vacated : (if k + 1 < sink.maxBackups ∧ verdicts.rename (k + 1) = true ∧
        disk.read (slotPath sink.path (k + 1)) ≠ none then none
      else if k + 1 = sink.maxBackups then none
      else disk.read (slotPath sink.path (k + 1))) = none := by
    split_ifs with moved last
    · rfl
    · rfl
    · by_contra found
      have below : k + 1 < sink.maxBackups := by omega
      exact moved ⟨below, (stops (k + 1) below).mpr (by omega), found⟩
  rw [if_neg unmoved, vacated]
  by_cases atCut : k + 1 = cut
  · rw [if_pos atCut, if_neg (by omega)]
    rfl
  · rw [if_neg atCut]
    by_cases present : disk.read (slotPath sink.path k) ≠ none
    · rw [if_pos ⟨by omega, present⟩]
    · rw [if_neg fun moved => present moved.2, not_not.mp present]

end

/-! ## Rotating -/

section

variable (env : WriteEnv) (world : World)

/-- A rotation leaves the shifted files and, if it gets so far, a new active one. -/
theorem read_rotate (keeps : 0 < world.sink.maxBackups) (flushed : env.verdicts.flush = true)
    (k : Nat) :
    (rotate env world).1.disk.read (slotPath world.sink.path k) =
      if k = 0 ∧ Moves world.sink env.verdicts world.disk 0 ∧ env.verdicts.reopen then some []
      else (shifted world.sink env.verdicts world.disk).read (slotPath world.sink.path k) := by
  unfold Disk.read
  rw [links_rotate env world keeps flushed]
  by_cases created : k = 0 ∧ Moves world.sink env.verdicts world.disk 0 ∧
      env.verdicts.reopen = true
  · rw [if_pos created, if_pos created, rotate_of_keeps env world keeps flushed,
      if_pos created.2.1, if_pos created.2.2]
    simp [Disk.create]
  · rw [if_neg created, if_neg created, inodes_shifted]
    cases linked : (shifted world.sink env.verdicts world.disk).links
        (slotPath world.sink.path k) with
    | none => rfl
    | some ino =>
        have old : ino < world.disk.fresh := by
          have bound := (shifted world.sink env.verdicts world.disk).linked_lt linked
          rwa [fresh_shifted] at bound
        exact congrArg some (content_rotate env world keeps old)

theorem slots_rotate : (rotate env world).1.slots =
    slotContents world.sink.path world.sink.maxBackups (rotate env world).1.disk := by
  rw [World.slots, rotate_path, rotate_maxBackups]

/-- A rotation whose shift stops below `cut`. -/
theorem slots_rotate_cut (cut : Nat) (keeps : 0 < world.sink.maxBackups)
    (flushed : env.verdicts.flush = true) (removes : env.verdicts.remove = true)
    (bounded : cut ≤ world.sink.maxBackups)
    (stops : ∀ k < world.sink.maxBackups, env.verdicts.rename k = true ↔ cut ≤ k) :
    (rotate env world).1.slots = Archive.rotateFrom cut world.slots := by
  rw [slots_rotate, World.slots, slotContents, slotContents,
    Archive.rotateFrom_map_range _ bounded]
  apply List.map_congr_left
  intro k member
  have inside : k ≤ world.sink.maxBackups := Nat.lt_succ_iff.mp (List.mem_range.mp member)
  rw [read_rotate env world keeps flushed]
  cases k with
  | zero =>
      have first : env.verdicts.rename 0 = true ↔ cut = 0 :=
        (stops 0 keeps).trans Nat.le_zero
      have active := read_shifted_zero world.sink env.verdicts world.disk keeps
      have moves := moves_iff world.sink env.verdicts world.disk 0
      rw [first, slotPath_zero] at moves
      rw [slotPath_zero, active]
      by_cases moved : Moves world.sink env.verdicts world.disk 0
      · rw [if_pos moved, (moves.mp moved).1, if_neg (Nat.lt_irrefl 0), if_pos rfl]
        split <;> rfl
      · rw [if_neg fun new => moved new.2.1, if_neg moved]
        by_cases whole : cut = 0
        · have absent : world.disk.read world.sink.path = none := by
            by_contra found
            exact moved (moves.mpr ⟨whole, found⟩)
          rw [absent, whole]
          rfl
        · rw [if_pos (Nat.pos_of_ne_zero whole)]
  | succ k =>
      rw [if_neg (fun new => Nat.succ_ne_zero k new.1),
        content_shifted_cut world.sink env.verdicts world.disk removes bounded stops inside]
      rfl

/-- A rotation that moves nothing. -/
theorem slots_rotate_unmoved (keeps : 0 < world.sink.maxBackups)
    (flushed : env.verdicts.flush = true) (stays : env.verdicts.remove = false)
    (unmoved : ∀ k < world.sink.maxBackups, env.verdicts.rename k = false) :
    (rotate env world).1.slots = world.slots := by
  have noMove : ∀ k < world.sink.maxBackups, ¬ Moves world.sink env.verdicts world.disk k := by
    intro k below moves
    have renamed := moves.1
    rw [unmoved k below] at renamed
    contradiction
  rw [slots_rotate, World.slots, slotContents, slotContents]
  apply List.map_congr_left
  intro k member
  have inside : k ≤ world.sink.maxBackups := Nat.lt_succ_iff.mp (List.mem_range.mp member)
  rw [read_rotate env world keeps flushed, if_neg fun new => noMove 0 keeps new.2.1]
  cases k with
  | zero =>
      rw [slotPath_zero, read_shifted_zero world.sink env.verdicts world.disk keeps,
        if_neg (noMove 0 keeps)]
  | succ k =>
      rw [read_shifted_succ world.sink env.verdicts world.disk inside, if_neg (noMove k inside),
        if_neg fun moves => noMove (k + 1) moves.1 moves.2, stays,
        if_neg fun removed => Bool.false_ne_true removed.1]

/-- A rotation that truncates, if the file can be opened. -/
theorem slots_rotate_truncate (truncates : world.sink.maxBackups = 0)
    (flushed : env.verdicts.flush = true) :
    (rotate env world).1.slots =
      if env.verdicts.reopen then Archive.rotate world.slots else world.slots := by
  rw [slots_rotate, World.slots, rotate_of_truncates env world truncates flushed, truncates]
  unfold Disk.openTruncate
  by_cases reopened : env.verdicts.reopen = true
  · rw [if_pos reopened, if_pos reopened]
    cases linked : world.disk.links world.sink.path with
    | none => simp [slotContents, Disk.read, Disk.create, Archive.rotate]
    | some ino => simp [slotContents, Disk.read, Disk.update, linked, Archive.rotate]
  · rw [if_neg reopened, if_neg reopened]

/-- A rotation that is interrupted gives up the oldest bin or nothing. -/
theorem history_rotate_stopped {count written : Nat}
    (stopped : env.verdicts = .stopped world.sink.maxBackups count written) :
    Archive.history (rotate env world).1.slots <:+ Archive.history world.slots := by
  have whole : Archive.history (Archive.rotate world.slots) <:+ Archive.history world.slots := by
    rw [Archive.history_rotate world.slots_ne_nil]
    exact List.suffix_append _ _
  by_cases flushed : env.verdicts.flush = true
  · rcases Nat.eq_zero_or_pos world.sink.maxBackups with truncates | keeps
    · rw [slots_rotate_truncate env world truncates flushed]
      split
      · exact whole
      · exact List.suffix_rfl
    · by_cases removes : 1 < count
      · rw [slots_rotate_cut env world (world.sink.maxBackups + 2 - count) keeps flushed
          (by simp [stopped, Verdicts.stopped, removes]) (by omega)
          (fun k below => by simp [stopped, Verdicts.stopped]; omega)]
        exact Archive.history_rotateFrom (by rw [World.length_slots]; omega)
      · rw [slots_rotate_unmoved env world keeps flushed
          (by simp [stopped, Verdicts.stopped]; omega)
          (fun k below => by simp [stopped, Verdicts.stopped]; omega)]
  · rw [rotate_of_not_flushed env world flushed]

/-- A rotation that succeeds leaves the sink attached to its path. -/
theorem attached_rotate (rotated : (rotate env world).2 = .ok ()) :
    (rotate env world).1.Attached := by
  by_cases flushed : env.verdicts.flush = true
  · rcases Nat.eq_zero_or_pos world.sink.maxBackups with truncates | keeps
    · rw [rotate_of_truncates env world truncates flushed] at rotated ⊢
      unfold Disk.openTruncate at rotated ⊢
      by_cases reopened : env.verdicts.reopen = true
      · rw [if_pos reopened]
        cases linked : world.disk.links world.sink.path with
        | none => simp [World.Attached, Disk.create, restart]
        | some ino => simp [World.Attached, Disk.update, restart, linked]
      · rw [if_neg reopened] at rotated
        contradiction
    · rw [rotate_of_keeps env world keeps flushed] at rotated ⊢
      split_ifs at rotated ⊢
      simp [World.Attached, Disk.create, restart]
  · rw [rotate_of_not_flushed env world flushed] at rotated
    contradiction

/-- No rotation fails with an error of `write_all`. -/
theorem rotate_error_ne_write {error : IoError} (failed : (rotate env world).2 = .error error) :
    error ≠ .write := by
  rintro rfl
  by_cases flushed : env.verdicts.flush = true
  · rcases Nat.eq_zero_or_pos world.sink.maxBackups with truncates | keeps
    · rw [rotate_of_truncates env world truncates flushed] at failed
      split at failed <;> simp at failed
    · rw [rotate_of_keeps env world keeps flushed] at failed
      split_ifs at failed <;> simp at failed
  · rw [rotate_of_not_flushed env world flushed] at failed
    simp at failed

end

/-! ## Writing -/

/-- What `write_all` writes of a record. -/
def appended (env : WriteEnv) (bytes : Bytes) : Bytes :=
  match env.verdicts.write with
  | none => bytes
  | some count => bytes.take count

/-- What a write with the given result has written of its record. -/
def appendedBy (env : WriteEnv) (bytes : Bytes) : Except IoError Unit → Bytes
  | .ok () => bytes
  | .error .write => appended env bytes
  | .error _ => []

section

variable (env : WriteEnv) (bytes : Bytes) {world : World}

theorem attached_appendBytes (attached : world.Attached) :
    (appendBytes env bytes world).1.Attached := by
  have sameFile : (appendBytes env bytes world).1.sink.file = world.sink.file := by
    unfold appendBytes
    split <;> rfl
  rw [World.Attached, appendBytes_links, appendBytes_path, sameFile]
  exact attached

theorem appendedBy_appendBytes (world : World) :
    appendedBy env bytes (appendBytes env bytes world).2 = appended env bytes := by
  unfold appendBytes
  cases all : env.verdicts.write with
  | none => simp [appendedBy, appended, all]
  | some count => simp [appendedBy, appended, all]

theorem appended_faultless (faultless : env.verdicts = .faultless) :
    appended env bytes = bytes := by
  rw [appended, faultless]
  rfl

/-- Appending extends the active file. -/
theorem read_appendBytes (attached : world.Attached) (k : Nat) :
    (appendBytes env bytes world).1.disk.read (slotPath world.sink.path k) =
      if k = 0 then (world.disk.read (slotPath world.sink.path k)).map (· ++ appended env bytes)
      else world.disk.read (slotPath world.sink.path k) := by
  have isActive : world.disk.links (slotPath world.sink.path k) = some world.sink.file ↔ k = 0 := by
    constructor
    · intro linked
      exact slotPath_injective _ (world.disk.one_name linked attached)
    · rintro rfl
      exact attached
  unfold appendBytes appended
  cases env.verdicts.write with
  | none => simp only [Disk.read_append, isActive]
  | some count => simp only [Disk.read_append, isActive]

theorem slots_appendBytes (attached : world.Attached) :
    (appendBytes env bytes world).1.slots = Archive.extend (appended env bytes) world.slots := by
  have isOpen : ∃ content, world.disk.read world.sink.path = some content :=
    ⟨_, by rw [Disk.read, attached]; rfl⟩
  obtain ⟨content, isOpen⟩ := isOpen
  rw [World.slots, World.slots, appendBytes_path, appendBytes_maxBackups, slotContents,
    slotContents, List.range_succ_eq_map, List.map_cons, List.map_cons, Archive.extend,
    read_appendBytes env bytes attached]
  congr 1
  · simp [isOpen]
  · apply List.map_congr_left
    intro k member
    obtain ⟨j, _, rfl⟩ := List.mem_map.mp member
    rw [read_appendBytes env bytes attached, if_neg (Nat.succ_ne_zero j)]

/-- An interrupted write leaves the end of what had been written before and by
itself. -/
theorem history_writeBytes_stopped {count written : Nat} (attached : world.Attached)
    (stopped : env.verdicts = .stopped world.sink.maxBackups count written) :
    Archive.history (writeBytes env bytes world).1.slots <:+
      Archive.history world.slots ++ appendedBy env bytes (writeBytes env bytes world).2 := by
  have appends : ∀ {middle : World}, middle.Attached →
      Archive.history middle.slots <:+ Archive.history world.slots →
      Archive.history (appendBytes env bytes middle).1.slots <:+
        Archive.history world.slots ++ appendedBy env bytes (appendBytes env bytes middle).2 := by
    intro middle middleAttached retained
    rw [slots_appendBytes env bytes middleAttached, Archive.history_extend _ middle.slots_ne_nil,
      appendedBy_appendBytes]
    exact List.suffix_append_self_iff.mpr retained
  rcases writeBytes_cases env bytes world with
    ⟨_, same⟩ | ⟨_, ⟨error, failed, same⟩ | ⟨rotated, same⟩⟩
  · rw [same]
    exact appends attached List.suffix_rfl
  · have nothing : appendedBy env bytes (.error error) = [] := by
      have notWrite := rotate_error_ne_write env world failed
      cases error <;> first | rfl | exact absurd rfl notWrite
    rw [same, nothing, List.append_nil]
    exact history_rotate_stopped env world stopped
  · rw [same]
    exact appends (attached_rotate env world rotated) (history_rotate_stopped env world stopped)

/-- A rotation without a fault. -/
theorem rotate_faultless (attached : world.Attached) (faultless : env.verdicts = .faultless) :
    (rotate env world).2 = .ok () ∧ (rotate env world).1.slots = Archive.rotate world.slots ∧
      (rotate env world).1.disk.read world.sink.path = some [] ∧
      ∀ k < world.sink.maxBackups,
        (rotate env world).1.disk.read (slotPath world.sink.path (k + 1)) =
          world.disk.read (slotPath world.sink.path k) := by
  have flushed : env.verdicts.flush = true := by rw [faultless]; rfl
  have reopened : env.verdicts.reopen = true := by rw [faultless]; rfl
  rcases Nat.eq_zero_or_pos world.sink.maxBackups with truncates | keeps
  · refine ⟨?_, ?_, ?_, fun k below => absurd below (by omega)⟩
    · rw [rotate_of_truncates env world truncates flushed, Disk.openTruncate, if_pos reopened,
        attached]
    · rw [slots_rotate_truncate env world truncates flushed, if_pos reopened]
    · rw [rotate_of_truncates env world truncates flushed, Disk.openTruncate, if_pos reopened,
        attached]
      have linked : world.disk.links world.sink.path = some world.sink.file := attached
      simp [Disk.read, Disk.update, linked]
  · have moves : Moves world.sink env.verdicts world.disk 0 := by
      have linked : world.disk.links world.sink.path = some world.sink.file := attached
      exact ⟨by rw [faultless]; rfl, by simp [linked]⟩
    refine ⟨?_, ?_, ?_, fun k below => ?_⟩
    · rw [rotate_of_keeps env world keeps flushed, if_pos moves, if_pos reopened]
    · exact slots_rotate_cut env world 0 keeps flushed (by rw [faultless]; rfl)
        (Nat.zero_le _) fun k _ => by simp [faultless, Verdicts.faultless]
    · have active := read_rotate env world keeps flushed 0
      rwa [if_pos ⟨rfl, moves, reopened⟩] at active
    · rw [read_rotate env world keeps flushed, if_neg fun new => Nat.succ_ne_zero k new.1,
        faultless, read_shifted_faultless world.sink world.disk below]

/-- A write without a fault. -/
theorem writeBytes_faultless (attached : world.Attached) (faultless : env.verdicts = .faultless) :
    (writeBytes env bytes world).2 = .ok () ∧ (writeBytes env bytes world).1.Attached ∧
      (writeBytes env bytes world).1.slots = Archive.extend bytes
        (if rotationDue env bytes world.sink then Archive.rotate world.slots
          else world.slots) := by
  have wholeRecord := appended_faultless env bytes faultless
  have written : ∀ middle : World, (appendBytes env bytes middle).2 = .ok () := by
    intro middle
    rw [appendBytes, faultless]
    rfl
  rcases writeBytes_cases env bytes world with
    ⟨calm, same⟩ | ⟨due, ⟨error, failed, same⟩ | ⟨rotated, same⟩⟩
  · rw [same, calm, slots_appendBytes env bytes attached, wholeRecord]
    exact ⟨written world, attached_appendBytes env bytes attached, rfl⟩
  · rw [(rotate_faultless env attached faultless).1] at failed
    contradiction
  · have rotatedAttached := attached_rotate env world rotated
    rw [same, due, slots_appendBytes env bytes rotatedAttached, wholeRecord,
      (rotate_faultless env attached faultless).2.1]
    exact ⟨written _, attached_appendBytes env bytes rotatedAttached, rfl⟩

/-- What a write without a fault does to each file: with a rotation every slot
gets the file from below, and without one only the active file is extended. -/
theorem read_writeBytes_faultless (attached : world.Attached)
    (faultless : env.verdicts = .faultless) :
    if rotationDue env bytes world.sink then
      (writeBytes env bytes world).1.disk.read world.sink.path = some bytes ∧
        ∀ k < world.sink.maxBackups,
          (writeBytes env bytes world).1.disk.read (slotPath world.sink.path (k + 1)) =
            world.disk.read (slotPath world.sink.path k)
    else
      (writeBytes env bytes world).1.disk.read world.sink.path =
          (world.disk.read world.sink.path).map (· ++ bytes) ∧
        ∀ k < world.sink.maxBackups,
          (writeBytes env bytes world).1.disk.read (slotPath world.sink.path (k + 1)) =
            world.disk.read (slotPath world.sink.path (k + 1)) := by
  have wholeRecord := appended_faultless env bytes faultless
  rcases writeBytes_cases env bytes world with
    ⟨calm, same⟩ | ⟨due, ⟨error, failed, same⟩ | ⟨rotated, same⟩⟩
  · rw [calm, if_neg Bool.false_ne_true, same]
    have active := read_appendBytes env bytes attached 0
    rw [if_pos rfl, wholeRecord] at active
    constructor
    · exact active
    · intro k _
      rw [read_appendBytes env bytes attached, if_neg (Nat.succ_ne_zero k)]
  · rw [(rotate_faultless env attached faultless).1] at failed
    contradiction
  · rw [due, if_pos rfl, same]
    have rotatedAttached := attached_rotate env world rotated
    obtain ⟨_, _, emptied, moved⟩ := rotate_faultless env attached faultless
    have after := read_appendBytes env bytes rotatedAttached
    rw [rotate_path, wholeRecord] at after
    constructor
    · have active := after 0
      rw [if_pos rfl, slotPath_zero, emptied] at active
      exact active
    · intro k below
      rw [after, if_neg (Nat.succ_ne_zero k), moved k below]

end

/-! ## Runs -/

/-- The files in the slots, as an archive of chunks of which a past sequence
retains the end. -/
def Retains (slots past : List Bytes) : Prop :=
  ∃ bins : List (List Bytes), slots = bins.map List.flatten ∧ Archive.history bins <:+ past

theorem Retains.history_suffix {slots past : List Bytes} (retains : Retains slots past) :
    Archive.history slots <:+ past.flatten := by
  obtain ⟨bins, rfl, before, split⟩ := retains
  rw [Archive.history_map_flatten, ← split, List.flatten_append]
  exact List.suffix_append _ _

theorem Retains.rotate {slots past : List Bytes} (nonempty : slots ≠ [])
    (retains : Retains slots past) : Retains (Archive.rotate slots) past := by
  obtain ⟨bins, rfl, suffix⟩ := retains
  refine ⟨Archive.rotate bins, (Archive.map_flatten_rotate bins).symm, ?_⟩
  have binsNonempty : bins ≠ [] := fun none => nonempty (by rw [none]; rfl)
  rw [Archive.history_rotate binsNonempty] at suffix
  exact (List.suffix_append _ _).trans suffix

theorem Retains.extend {slots past : List Bytes} (nonempty : slots ≠ [])
    (retains : Retains slots past) (record : Bytes) :
    Retains (Archive.extend record slots) (past ++ [record]) := by
  obtain ⟨bins, rfl, suffix⟩ := retains
  refine ⟨Archive.extend [record] bins, (Archive.map_flatten_extend record bins).symm, ?_⟩
  have binsNonempty : bins ≠ [] := fun none => nonempty (by rw [none]; rfl)
  rw [Archive.history_extend _ binsNonempty]
  exact List.suffix_append_self_iff.mpr suffix

/-- Opening without a fault adds at most an empty active file. -/
theorem openWith_faultless (path : Text) (maxSize maxBackups : Nat) (interval : RotationInterval)
    {env : OpenEnv} (faultless : env.Faultless) (disk : Volume) :
    ∃ world : World, openWith path maxSize maxBackups interval env disk =
        (.ok world.sink, world.disk) ∧
      world.Attached ∧ world.sink.path = path ∧ world.sink.maxBackups = maxBackups ∧
      world.slots = slotContents path maxBackups disk := by
  obtain ⟨createDir, openFile, _, _⟩ := faultless
  unfold openWith Disk.openAppend
  rw [if_pos createDir, if_pos openFile]
  cases linked : disk.links path with
  | some file => exact ⟨⟨_, disk⟩, rfl, linked, rfl, rfl, rfl⟩
  | none =>
      refine ⟨⟨_, disk.create path env.opened⟩, rfl, ?_, rfl, rfl, ?_⟩
      · simp [World.Attached, Disk.create]
      · apply List.map_congr_left
        intro k _
        by_cases active : slotPath path k = path
        · have absent : disk.read path = none := by rw [Disk.read, linked]; rfl
          rw [active, Disk.read_create_self, absent]
          rfl
        · rw [Disk.read_create_of_ne disk active]

/-- What holds of a sink on its path throughout a run without faults. -/
structure Preserved (path : Text) (maxBackups : Nat) (past : List Bytes) (world : World) :
    Prop where
  attached : world.Attached
  path_eq : world.sink.path = path
  maxBackups_eq : world.sink.maxBackups = maxBackups
  retains : Retains world.slots past

/-- A world that is the outcome of opening a sink without a fault. -/
theorem of_openWith_faultless {path : Text} {maxSize maxBackups : Nat}
    {interval : RotationInterval} {opening : OpenEnv} {disk : Volume} {first : World}
    (free : opening.Faultless)
    (opened : openWith path maxSize maxBackups interval opening disk =
      (.ok first.sink, first.disk)) :
    first.Attached ∧ first.sink.path = path ∧ first.sink.maxBackups = maxBackups ∧
      first.slots = slotContents path maxBackups disk := by
  obtain ⟨world, same, holds⟩ := openWith_faultless path maxSize maxBackups interval free disk
  obtain ⟨sinks, disks⟩ := Prod.mk.inj (same.symm.trans opened)
  cases world
  cases first
  cases sinks
  cases disks
  exact holds

/-- A sink opened without a fault keeps what the files held at first. -/
theorem preserved_of_openWith {path : Text} {maxSize maxBackups : Nat}
    {interval : RotationInterval} {opening : OpenEnv} {disk : Volume} {first : World}
    (free : opening.Faultless)
    (opened : openWith path maxSize maxBackups interval opening disk =
      (.ok first.sink, first.disk)) :
    Preserved path maxBackups (slotContents path maxBackups disk).reverse first := by
  obtain ⟨attached, path_eq, maxBackups_eq, slots⟩ := of_openWith_faultless free opened
  refine ⟨attached, path_eq, maxBackups_eq,
    (slotContents path maxBackups disk).map fun chunk => [chunk], ?_, ?_⟩
  · rw [slots, List.map_map]
    simp [Function.comp_def]
  · rw [Archive.history_map_singleton]

theorem Preserved.slots_eq {path : Text} {maxBackups : Nat} {past : List Bytes} {world : World}
    (preserved : Preserved path maxBackups past world) :
    world.slots = slotContents path maxBackups world.disk := by
  rw [World.slots, preserved.path_eq, preserved.maxBackups_eq]

/-- Where there was no file, there is nothing to keep. -/
theorem Preserved.fresh {path : Text} {maxBackups : Nat} {past : List Bytes} {world : World}
    (preserved : Preserved path maxBackups past world)
    (empty : ∀ content ∈ world.slots, content = []) :
    Preserved path maxBackups [] world :=
  { preserved with
    retains := by
      refine ⟨world.slots.map fun _ => [], ?_, ?_⟩
      · rw [List.map_map]
        conv_lhs => rw [← List.map_id world.slots]
        exact List.map_congr_left empty
      · have nothing : Archive.history (world.slots.map fun _ => ([] : List Bytes)) = [] := by
          rw [Archive.history, List.flatten_eq_nil_iff]
          intro bin member
          obtain ⟨_, _, rfl⟩ := List.mem_map.mp (List.mem_reverse.mp member)
          rfl
        rw [nothing] }

/-- One event without a fault. -/
theorem Preserved.step {path : Text} {maxBackups : Nat} {past : List Bytes} {world : World}
    (preserved : Preserved path maxBackups past world) {event : Event}
    (faultless : event.Faultless maxBackups) :
    ∃ next, step world event = some next ∧
      Preserved path maxBackups (past ++ records [event]) next := by
  cases event with
  | write env bytes =>
      obtain ⟨_, attached, slots⟩ := writeBytes_faultless env bytes preserved.attached faultless
      refine ⟨_, rfl, attached, ?_, ?_, ?_⟩
      · rw [writeBytes_path, preserved.path_eq]
      · rw [writeBytes_maxBackups, preserved.maxBackups_eq]
      · have rotated := preserved.retains.rotate world.slots_ne_nil
        rw [slots, records, records]
        split
        · exact rotated.extend (List.cons_ne_nil _ _) bytes
        · exact preserved.retains.extend world.slots_ne_nil bytes
  | reopen maxSize newMaxBackups interval env =>
      obtain ⟨rfl, faultless⟩ := faultless
      obtain ⟨next, opened, attached, path_eq, maxBackups_eq, slots⟩ :=
        openWith_faultless world.sink.path maxSize newMaxBackups interval faultless world.disk
      refine ⟨next, ?_, attached, path_eq.trans preserved.path_eq, maxBackups_eq, ?_⟩
      · simp only [Rotation.step, opened]
      · have same : next.slots = world.slots := by
          rw [slots, World.slots, preserved.maxBackups_eq]
        rw [same, records, records, List.append_nil]
        exact preserved.retains

/-- A run without faults. -/
theorem Preserved.run {path : Text} {maxBackups : Nat} {past : List Bytes} {world : World}
    (preserved : Preserved path maxBackups past world) {events : List Event}
    (faultless : ∀ event ∈ events, event.Faultless maxBackups) :
    ∃ target, Transition.run Rotation.step world events = some target ∧
      Preserved path maxBackups (past ++ records events) target := by
  induction events generalizing past world with
  | nil => exact ⟨world, rfl, by simpa [records] using preserved⟩
  | cons event events ih =>
      obtain ⟨next, stepped, nextPreserved⟩ :=
        preserved.step (faultless event List.mem_cons_self)
      obtain ⟨target, ran, targetPreserved⟩ :=
        ih nextPreserved fun later member => faultless later (List.mem_cons_of_mem event member)
      rw [List.append_assoc, ← records_cons] at targetPreserved
      exact ⟨target, (run_cons_eq_some Rotation.step).mpr ⟨next, stepped, ran⟩, targetPreserved⟩

/-- Rotation preserves the log.  After a run without faults the files hold the
end of what they held at first and all that was written, also while a further
write is under way; every record is whole in one file or gone; and what a
rotation discards is the oldest file only. -/
theorem rotation_preserves (path : Text) (maxSize maxBackups : Nat) (interval : RotationInterval)
    (disk : Volume) {opening : OpenEnv} (opened : opening.Faultless) {events : List Event}
    (faultless : ∀ event ∈ events, event.Faultless maxBackups) :
    ∃ first target : World,
      openWith path maxSize maxBackups interval opening disk = (.ok first.sink, first.disk) ∧
      run step first events = some target ∧
      Archive.history target.slots <:+
        Archive.history (slotContents path maxBackups disk) ++ (records events).flatten ∧
      Retains target.slots ((slotContents path maxBackups disk).reverse ++ records events) ∧
      (∀ env bytes count written, env.verdicts = .stopped maxBackups count written →
        Archive.history (writeBytes env bytes target).1.slots <:+
          Archive.history (slotContents path maxBackups disk) ++ (records events).flatten ++
            appendedBy env bytes (writeBytes env bytes target).2) ∧
      ∀ env bytes, env.verdicts = .faultless →
        if rotationDue env bytes target.sink then
          (writeBytes env bytes target).1.disk.read path = some bytes ∧
            ∀ k < maxBackups,
              (writeBytes env bytes target).1.disk.read (slotPath path (k + 1)) =
                target.disk.read (slotPath path k)
        else
          (writeBytes env bytes target).1.disk.read path =
              (target.disk.read path).map (· ++ bytes) ∧
            ∀ k < maxBackups,
              (writeBytes env bytes target).1.disk.read (slotPath path (k + 1)) =
                target.disk.read (slotPath path (k + 1)) := by
  obtain ⟨first, isOpen, attached, path_eq, maxBackups_eq, slots⟩ :=
    openWith_faultless path maxSize maxBackups interval opened disk
  have chunks : Retains first.slots (slotContents path maxBackups disk).reverse := by
    refine ⟨(slotContents path maxBackups disk).map fun chunk => [chunk], ?_, ?_⟩
    · rw [slots, List.map_map]
      simp [Function.comp_def]
    · rw [Archive.history_map_singleton]
  have start : Preserved path maxBackups (slotContents path maxBackups disk).reverse first :=
    ⟨attached, path_eq, maxBackups_eq, chunks⟩
  obtain ⟨target, ran, preserved⟩ := start.run faultless
  have suffix := preserved.retains.history_suffix
  rw [List.flatten_append] at suffix
  refine ⟨first, target, isOpen, ran, suffix, preserved.retains, ?_, ?_⟩
  · intro env bytes count written stopped
    rw [← preserved.maxBackups_eq] at stopped
    have interrupted := history_writeBytes_stopped env bytes preserved.attached stopped
    exact interrupted.trans (List.suffix_append_self_iff.mpr suffix)
  · intro env bytes free
    have files := read_writeBytes_faultless env bytes preserved.attached free
    rw [preserved.path_eq, preserved.maxBackups_eq] at files
    exact files

theorem rotation_preserves_fresh :
    ∃ first target : World,
      openWith "a".toList 1 1 .never ⟨true, true, true, true, 0, 0⟩ Disk.empty =
        (.ok first.sink, first.disk) ∧
      run step first [.write ⟨0, 0, 0, 0, .faultless⟩ [1], .write ⟨0, 0, 0, 0, .faultless⟩ [2]] =
        some target ∧
      Archive.history target.slots <:+ [1, 2] := by
  have opened : OpenEnv.Faultless ⟨true, true, true, true, 0, 0⟩ := ⟨rfl, rfl, rfl, rfl⟩
  have faultless : ∀ event ∈ ([.write ⟨0, 0, 0, 0, .faultless⟩ [1],
      .write ⟨0, 0, 0, 0, .faultless⟩ [2]] : List Event), event.Faultless 1 := by
    intro event member
    rcases List.mem_cons.mp member with rfl | member
    · rfl
    · rw [List.mem_singleton.mp member]
      rfl
  obtain ⟨first, target, isOpen, ran, suffix, _⟩ :=
    rotation_preserves "a".toList 1 1 .never Disk.empty opened faultless
  exact ⟨first, target, isOpen, ran, suffix⟩

end XosLog.Rotation
