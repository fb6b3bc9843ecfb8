import XosLog.Rotation.Shelving

/-!
# Empty archives

A rotation does not look at what it archives.  After its first record a file is
no longer empty, so that an empty file is archived only when the first write on
an unused path rotates: its record exceeds the size limit by itself, or the slot
of the new file has ended.
-/

namespace XosLog.Rotation

open FileSystem Transition

/-- A record is written without a fault. -/
def Event.Appends : Event → Prop
  | .write env bytes => env.verdicts = .faultless ∧ bytes ≠ []
  | .reopen .. => False

/-- Nothing is at a path or at any of its backup numbers. -/
def Unused (path : Text) (disk : Volume) : Prop :=
  ∀ k, disk.links (slotPath path k) = none

/-- The first write rotates a file created at the given instant: its record is
too long for an empty file, or the slot has ended. -/
def RotatesEmpty (maxSize : Nat) (interval : RotationInterval) (created : Instant) :
    List Event → Prop
  | .write env bytes :: _ =>
      (0 < maxSize ∧ maxSize < saturatingAdd 0 bytes.length) ∨
        ∃ slot later, interval.slotStart created = some slot ∧
          interval.slotStart env.checked = some later ∧ slot < later
  | _ => False

/-- A backup that is an empty file. -/
def EmptyBackup (world : World) (k : Nat) : Prop :=
  0 < k ∧ world.disk.read (slotPath world.sink.path k) = some []

/-! ## Opening -/

section

variable {path : Text} {maxSize maxBackups : Nat} {interval : RotationInterval} {env : OpenEnv}
  {disk : Volume} {world : World} (free : env.Faultless) (unused : Unused path disk)
  (opened : openWith path maxSize maxBackups interval env disk = (.ok world.sink, world.disk))

include free unused opened

/-- The file is new and empty. -/
theorem created_of_openWith :
    world.disk = disk.create path env.opened ∧
      world.sink = {
        path, file := disk.fresh, maxSize, maxBackups, size := 0, interval,
        intervalStart := interval.slotStart env.opened } := by
  obtain ⟨sink, ⟨linked, _⟩ | ⟨created, fresh⟩⟩ := sink_of_openWith free opened
  · have absent : disk.links path = none := unused 0
    rw [absent] at linked
    contradiction
  · refine ⟨created, ?_⟩
    rw [sink, intervalStartFor_some, fresh, created, Disk.inodes_create, Function.update_self]
    rfl

theorem rotationDue_of_openWith (call : WriteEnv) (bytes : Bytes) (events : List Event) :
    rotationDue call bytes world.sink = true ↔
      RotatesEmpty maxSize interval env.opened (.write call bytes :: events) := by
  obtain ⟨_, sink⟩ := created_of_openWith free unused opened
  rw [rotationDue, sink, Bool.or_eq_true, RotatesEmpty, FileSink.sizeHit, decide_eq_true_eq,
    FileSink.intervalElapsed]
  apply or_congr_right
  dsimp only
  cases interval.slotStart env.opened with
  | none => simp
  | some slot =>
      cases interval.slotStart call.checked with
      | none => simp
      | some later => simp

/-- Only place zero is in use, by an empty file. -/
theorem marks_of_openWith :
    NumberedShelf.Marks (· = []) maxBackups (fun k => k = 0) world.shelf := by
  obtain ⟨created, sink⟩ := created_of_openWith free unused opened
  have samePath : world.sink.path = path := congrArg FileSink.path sink
  have backups : ∀ k, world.shelf (k + 1) = none := by
    intro k
    rw [shelf_openWith free opened, Disk.read, unused]
    rfl
  constructor
  · intro k beyond
    obtain ⟨j, rfl⟩ := Nat.exists_eq_add_one_of_ne_zero (Nat.ne_zero_of_lt beyond)
    exact backups j
  · intro k _
    cases k with
    | zero =>
        have active : world.shelf 0 = some [] := by
          rw [World.shelf, slotPath_zero, samePath, created, Disk.read_create_self]
        exact iff_of_true ⟨[], active, rfl⟩ rfl
    | succ k => simp [backups k]

end

/-! ## Writing -/

/-- Where the empty files are after some records. -/
structure Emptied (maxBackups : Nat) (places : Nat → Prop) (logged : Logged) : Prop where
  attached : logged.world.Attached
  maxBackups_eq : logged.world.sink.maxBackups = maxBackups
  marks : NumberedShelf.Marks (· = []) maxBackups places logged.world.shelf

theorem append_ne_nil_of_record {bytes : Bytes} (record : bytes ≠ []) (content : Bytes) :
    content ++ bytes ≠ [] :=
  fun empty => record (List.append_eq_nil_iff.mp empty).2

theorem Journal.rotations_rotate (journal : Journal) (env : WriteEnv) (bytes : Bytes)
    (sink : FileSink) :
    (journal.rotate env bytes sink).rotations =
      if rotationDue env bytes sink then journal.rotations + 1 else journal.rotations := by
  unfold Journal.rotate
  split
  · split <;> rfl
  · rfl

/-- A record leaves empty files among the backups only; a rotation moves them up. -/
theorem Emptied.write_cases {maxBackups : Nat} {places : Nat → Prop} {logged next : Logged}
    {env : WriteEnv} {bytes : Bytes} (emptied : Emptied maxBackups places logged)
    (appends : (Event.write env bytes).Appends)
    (stepped : logStep logged (.write env bytes) = some next) :
    (rotationDue env bytes logged.world.sink = true ∧
      next.journal.rotations = logged.journal.rotations + 1 ∧
      Emptied maxBackups (fun k => ∃ j, k = j + 1 ∧ places j) next) ∨
    (rotationDue env bytes logged.world.sink = false ∧
      next.journal.rotations = logged.journal.rotations ∧
      Emptied maxBackups (fun k => 0 < k ∧ places k) next) := by
  obtain ⟨attached, maxBackups_eq, marks⟩ := emptied
  obtain ⟨free, record⟩ := appends
  obtain rfl := Option.some.inj stepped
  have stillAttached := (writeBytes_faultless env bytes attached free).2.1
  have sameBackups := (writeBytes_maxBackups env bytes logged.world).trans maxBackups_eq
  have shelf := shelf_writeBytes env bytes attached free
  have rotations := logged.journal.rotations_rotate env bytes logged.world.sink
  cases due : rotationDue env bytes logged.world.sink with
  | true =>
      left
      rw [due, if_pos rfl] at shelf rotations
      rw [maxBackups_eq] at shelf
      exact ⟨rfl, rotations, stillAttached, sameBackups, shelf ▸ marks.push record⟩
  | false =>
      right
      rw [due, if_neg Bool.false_ne_true] at shelf rotations
      exact ⟨rfl, rotations, stillAttached, sameBackups,
        shelf ▸ marks.renew (append_ne_nil_of_record record)⟩

/-- The empty file, if there is one, is as old as the run: every rotation has
moved it, and the first record was not written to it. -/
structure Aged (maxBackups : Nat) (led : Prop) (logged : Logged) : Prop where
  emptied : Emptied maxBackups (fun k => led ∧ k = logged.journal.rotations) logged
  begun : led → 0 < logged.journal.rotations

theorem Emptied.congr {maxBackups : Nat} {places others : Nat → Prop} {logged : Logged}
    (emptied : Emptied maxBackups places logged) (same : ∀ k, places k ↔ others k) :
    Emptied maxBackups others logged :=
  ⟨emptied.attached, emptied.maxBackups_eq, emptied.marks.congr same⟩

theorem Emptied.backup_iff {maxBackups : Nat} {places : Nat → Prop} {logged : Logged}
    (emptied : Emptied maxBackups places logged) (k : Nat) :
    EmptyBackup logged.world k ↔ 0 < k ∧ k ≤ maxBackups ∧ places k := by
  apply and_congr_right
  intro _
  change logged.world.shelf k = some [] ↔ _
  by_cases inside : k ≤ maxBackups
  · rw [← emptied.marks.marked k inside]
    simp [inside]
  · rw [emptied.marks.beyond k (Nat.lt_of_not_le inside)]
    simp [inside]

section

variable {maxBackups : Nat} {logged next : Logged} {env : WriteEnv} {bytes : Bytes}
  (appends : (Event.write env bytes).Appends)
  (stepped : logStep logged (.write env bytes) = some next)

include appends stepped

/-- The first record. -/
theorem aged_first (emptied : Emptied maxBackups (fun k => k = 0) logged)
    (start : logged.journal.rotations = 0) :
    Aged maxBackups (rotationDue env bytes logged.world.sink = true) next := by
  rcases emptied.write_cases appends stepped with
    ⟨due, rotations, moved⟩ | ⟨calm, rotations, kept⟩
  · have once : next.journal.rotations = 1 := by rw [rotations, start]
    constructor
    · apply moved.congr
      intro k
      rw [once]
      constructor
      · rintro ⟨j, rfl, rfl⟩
        exact ⟨due, rfl⟩
      · rintro ⟨-, rfl⟩
        exact ⟨0, rfl, rfl⟩
    · rw [once]
      exact fun _ => Nat.one_pos
  · constructor
    · apply kept.congr
      intro k
      rw [calm]
      apply iff_of_false
      · rintro ⟨positive, rfl⟩
        exact Nat.lt_irrefl 0 positive
      · exact fun led => Bool.false_ne_true led.1
    · rw [calm]
      exact fun led => absurd led Bool.false_ne_true

/-- A further record. -/
theorem Aged.write {led : Prop} (aged : Aged maxBackups led logged) :
    Aged maxBackups led next := by
  obtain ⟨emptied, begun⟩ := aged
  rcases emptied.write_cases appends stepped with
    ⟨_, rotations, moved⟩ | ⟨_, rotations, kept⟩
  · constructor
    · apply moved.congr
      intro k
      rw [rotations]
      constructor
      · rintro ⟨j, rfl, isLed, rfl⟩
        exact ⟨isLed, rfl⟩
      · rintro ⟨isLed, rfl⟩
        exact ⟨_, rfl, isLed, rfl⟩
    · rw [rotations]
      exact fun _ => Nat.succ_pos _
  · rw [← rotations] at begun kept
    constructor
    · apply kept.congr
      intro k
      constructor
      · exact And.right
      · rintro ⟨isLed, rfl⟩
        exact ⟨begun isLed, isLed, rfl⟩
    · exact begun

end

/-- A run of records. -/
theorem Aged.run {maxBackups : Nat} {led : Prop} {logged : Logged} {events : List Event}
    (aged : Aged maxBackups led logged) (appends : ∀ event ∈ events, event.Appends) :
    ∃ target, Transition.run logStep logged events = some target ∧
      Aged maxBackups led target := by
  induction events generalizing logged with
  | nil => exact ⟨logged, rfl, aged⟩
  | cons event events inductionHypothesis =>
      have first := appends event List.mem_cons_self
      have later : ∀ event ∈ events, event.Appends :=
        fun event member => appends event (List.mem_cons_of_mem _ member)
      cases event with
      | reopen => exact first.elim
      | write env bytes =>
          obtain ⟨target, ran, kept⟩ := inductionHypothesis (aged.write first rfl) later
          exact ⟨target, (run_cons_eq_some logStep).mpr ⟨_, rfl, ran⟩, kept⟩

/-- The only empty backup.  After any number of records on an unused path, a
backup is empty exactly when the first record rotated the new file and every
rotation since has moved that file to this number. -/
theorem emptyBackup_iff (path : Text) (maxSize maxBackups : Nat) (interval : RotationInterval)
    {disk : Volume} (unused : Unused path disk) {opening : OpenEnv} (free : opening.Faultless)
    {events : List Event} (appends : ∀ event ∈ events, event.Appends) :
    ∃ (first : World) (logged : Logged),
      openWith path maxSize maxBackups interval opening disk = (.ok first.sink, first.disk) ∧
      run logStep first.logged events = some logged ∧
      run step first events = some logged.world ∧
      ∀ k, EmptyBackup logged.world k ↔
        RotatesEmpty maxSize interval opening.opened events ∧ k = logged.journal.rotations ∧
          k ≤ maxBackups := by
  obtain ⟨first, opened, attached, _, maxBackups_eq, _⟩ :=
    openWith_faultless path maxSize maxBackups interval free disk
  have emptied : Emptied maxBackups (fun k => k = 0) first.logged :=
    ⟨attached, maxBackups_eq, marks_of_openWith free unused opened⟩
  cases events with
  | nil =>
      refine ⟨first, first.logged, opened, rfl, rfl, fun k => ?_⟩
      rw [emptied.backup_iff]
      apply iff_of_false
      · rintro ⟨positive, -, rfl⟩
        exact Nat.lt_irrefl 0 positive
      · exact fun rotates => rotates.1
  | cons event events =>
      have record := appends event List.mem_cons_self
      cases event with
      | reopen => exact record.elim
      | write env bytes =>
          obtain ⟨next, stepped⟩ : ∃ next, logStep first.logged (.write env bytes) = some next :=
            ⟨_, rfl⟩
          obtain ⟨logged, ran, emptied, begun⟩ := (aged_first record stepped emptied rfl).run
            fun event member => appends event (List.mem_cons_of_mem _ member)
          have whole := (run_cons_eq_some logStep).mpr ⟨next, stepped, ran⟩
          refine ⟨first, logged, opened, whole, run_of_logStep whole, fun k => ?_⟩
          have due := rotationDue_of_openWith free unused opened env bytes events
          rw [emptied.backup_iff, ← due]
          constructor
          · rintro ⟨-, inside, led, age⟩
            exact ⟨led, age, inside⟩
          · rintro ⟨led, age, inside⟩
            exact ⟨age ▸ begun led, inside, led, age⟩

/-- A record of two bytes on an unused path with a limit of one. -/
def oversizedRecord : List Event :=
  [.write ⟨0, 0, 0, 0, .faultless⟩ [1, 2]]

theorem oversizedRecord_appends : ∀ event ∈ oversizedRecord, event.Appends := by
  intro event member
  rw [List.mem_singleton.mp member]
  exact ⟨rfl, List.cons_ne_nil 1 [2]⟩

theorem emptyBackup_iff_oversizedRecord :
    ∃ (first : World) (logged : Logged),
      openWith "a".toList 1 1 .never ⟨true, true, true, true, 0, 0⟩ Disk.empty =
        (.ok first.sink, first.disk) ∧
      run logStep first.logged oversizedRecord = some logged ∧
      run step first oversizedRecord = some logged.world ∧
      ∀ k, EmptyBackup logged.world k ↔
        RotatesEmpty 1 .never 0 oversizedRecord ∧ k = logged.journal.rotations ∧ k ≤ 1 :=
  emptyBackup_iff "a".toList 1 1 .never (fun _ => rfl) ⟨rfl, rfl, rfl, rfl⟩
    oversizedRecord_appends

/-- A sink that was opened on an unused path. -/
def newWorld : World where
  sink :=
    { path := "a".toList, file := 0, maxSize := 1, maxBackups := 1, size := 0,
      interval := .never, intervalStart := none }
  disk := Disk.empty.create "a".toList 0

/-- Its first record makes an empty backup. -/
theorem not_forall_nonempty_backups :
    ¬ ∀ (path : Text) (maxSize maxBackups : Nat) (interval : RotationInterval) (disk : Volume)
      (opening : OpenEnv) (events : List Event) (first target : World),
      0 < maxBackups → Unused path disk → opening.Faultless →
      (∀ event ∈ events, event.Appends) →
      openWith path maxSize maxBackups interval opening disk = (.ok first.sink, first.disk) →
      run step first events = some target →
      ∀ k, ¬ EmptyBackup target k := by
  intro always
  have nonempty := always "a".toList 1 1 .never Disk.empty ⟨true, true, true, true, 0, 0⟩
    oversizedRecord newWorld _ (by decide) (fun _ => rfl) ⟨rfl, rfl, rfl, rfl⟩
    oversizedRecord_appends rfl rfl 1
  have empty : (writeBytes ⟨0, 0, 0, 0, .faultless⟩ [1, 2] newWorld).1.disk.read
      (slotPath "a".toList 1) = some [] := by
    decide +kernel
  exact nonempty ⟨Nat.one_pos, empty⟩

end XosLog.Rotation
