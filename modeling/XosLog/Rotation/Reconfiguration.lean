import XosLog.Rotation.Shelving

/-!
# Backups across reconfigurations

A rotation with `n` backups gives the numbers up to `n` and touches no other
one.  Backups that an earlier configuration numbered higher therefore stay when
the path is opened again with fewer backups.
-/

namespace XosLog.Rotation

open FileSystem Transition

/-- A world with the numbers that the rotations of a run have given to backups,
and with the height that these rotations alone give to a shelf. -/
structure Numbered where
  world : World
  numbers : List Nat
  height : Nat

/-- A run that begins. -/
def World.numbered (world : World) : Numbered :=
  { world, numbers := [], height := 0 }

/-- The numbers that a rotation gives: each file below the limit gets the next one. -/
def World.given (world : World) : List Nat :=
  ((List.range world.sink.maxBackups).filter fun k => (world.shelf k).isSome).map (· + 1)

/-- One event, followed by the numbers. -/
def numberStep : Step Numbered Event
  | state, .write env bytes =>
      let world := (writeBytes env bytes state.world).1
      if rotationDue env bytes state.world.sink then
        some { world, numbers := state.numbers ++ state.world.given,
               height := NumberedShelf.raise state.world.sink.maxBackups state.height }
      else some { state with world }
  | state, .reopen maxSize maxBackups interval env =>
      (step state.world (.reopen maxSize maxBackups interval env)).map fun world =>
        { state with world }

/-- A condition on the rotations among the events. -/
def AtRotation (condition : Numbered → WriteEnv → Bytes → Prop) (state : Numbered) :
    Event → Prop
  | .write env bytes =>
      rotationDue env bytes state.world.sink = true → condition state env bytes
  | .reopen .. => True

/-- Right after a rotation no backup is left whose number, given by an earlier
rotation, exceeds the number of backups. -/
def Trimmed (state : Numbered) (env : WriteEnv) (bytes : Bytes) : Prop :=
  ∀ k ∈ state.numbers, state.world.sink.maxBackups < k →
    (writeBytes env bytes state.world).1.disk.read (slotPath state.world.sink.path k) = none

/-- The number of backups is not below the number that an earlier rotation gave
to an existing backup. -/
def Covers (state : Numbered) (_ : WriteEnv) (_ : Bytes) : Prop :=
  ∀ k ∈ state.numbers, state.world.shelf k ≠ none → k ≤ state.world.sink.maxBackups

/-- The number of backups is not below the height. -/
def HasRoom (state : Numbered) (_ : WriteEnv) (_ : Bytes) : Prop :=
  state.height ≤ state.world.sink.maxBackups

theorem world_of_numberStep {state next : Numbered} {event : Event}
    (stepped : numberStep state event = some next) :
    step state.world event = some next.world := by
  cases event with
  | write env bytes =>
      unfold numberStep at stepped
      dsimp only at stepped
      split at stepped
      · obtain rfl := Option.some.inj stepped
        rfl
      · obtain rfl := Option.some.inj stepped
        rfl
  | reopen maxSize maxBackups interval env =>
      obtain ⟨reached, opened, rfl⟩ := Option.map_eq_some_iff.mp stepped
      exact opened

/-- A rotation gives no number beyond its own number of backups. -/
theorem mem_given_iff {world : World} {k : Nat} :
    k ∈ world.given ↔ ∃ j < world.sink.maxBackups, world.shelf j ≠ none ∧ j + 1 = k := by
  simp only [World.given, List.mem_map, List.mem_filter, List.mem_range, Option.isSome_iff_ne_none,
    and_assoc]

/-- An event without a fault has a next state. -/
theorem exists_numberStep {state : Numbered} (attached : state.world.Attached) {event : Event}
    (free : event.Free) : ∃ next, numberStep state event = some next := by
  cases event with
  | write env bytes =>
      unfold numberStep
      dsimp only
      split <;> exact ⟨_, rfl⟩
  | reopen maxSize maxBackups interval env =>
      have opened := openWith_attached free attached maxSize maxBackups interval
      simp only [numberStep, step, opened]
      exact ⟨_, rfl⟩

/-! ## One rotation -/

section

variable {state : Numbered} {env : WriteEnv} {bytes : Bytes}

/-- A rotation leaves exactly what it does not reach. -/
theorem trimmed_iff_covers (attached : state.world.Attached) (free : env.verdicts = .faultless)
    (due : rotationDue env bytes state.world.sink = true) :
    Trimmed state env bytes ↔ Covers state env bytes := by
  have beyond : ∀ k, state.world.sink.maxBackups < k →
      (writeBytes env bytes state.world).1.disk.read (slotPath state.world.sink.path k) =
        state.world.shelf k := by
    intro k above
    have shelf := congrFun (shelf_writeBytes env bytes attached free) k
    rw [due, if_pos rfl, NumberedShelf.push_of_limit_lt _ _ _ above, World.shelf,
      writeBytes_path] at shelf
    exact shelf
  constructor
  · intro trimmed k given present
    by_contra above
    have absent := trimmed k given (Nat.lt_of_not_le above)
    rw [beyond k (Nat.lt_of_not_le above)] at absent
    exact present absent
  · intro covers k given above
    rw [beyond k above]
    by_contra present
    exact absurd (covers k given present) (Nat.not_le.mpr above)

/-- All the backups are numbered by the run, without a gap. -/
structure Stacked (state : Numbered) : Prop where
  attached : state.world.Attached
  fills : NumberedShelf.Fills state.height state.world.shelf
  numbered : ∀ k, 0 < k → k ≤ state.height → k ∈ state.numbers

theorem Stacked.covers_iff (stacked : Stacked state) :
    Covers state env bytes ↔ HasRoom state env bytes := by
  constructor
  · intro covers
    rcases Nat.eq_zero_or_pos state.height with none | some
    · rw [HasRoom, none]
      exact Nat.zero_le _
    · exact covers state.height (stacked.numbered _ some (Nat.le_refl _))
        ((stacked.fills _).mpr (Nat.le_refl _))
  · intro room k _ present
    exact Nat.le_trans ((stacked.fills k).mp present) room

end

/-! ## Runs -/

theorem attached_numberStep {state next : Numbered} {event : Event}
    (attached : state.world.Attached) (free : event.Free)
    (stepped : numberStep state event = some next) : next.world.Attached :=
  (shelf_step attached free (world_of_numberStep stepped)).1

/-- Rotations stack one more backup while there is room for it. -/
theorem Stacked.step {state next : Numbered} {event : Event} (stacked : Stacked state)
    (free : event.Free) (stepped : numberStep state event = some next) : Stacked next := by
  obtain ⟨attached, fills, numbered⟩ := stacked
  obtain ⟨nextAttached, shelf⟩ := shelf_step attached free (world_of_numberStep stepped)
  cases event with
  | write env bytes =>
      unfold numberStep at stepped
      dsimp only at stepped
      split at stepped
      · rename_i due
        rw [shelve, if_pos due] at shelf
        obtain rfl := Option.some.inj stepped
        constructor
        · exact nextAttached
        · rw [shelf]
          exact fills.push _ bytes
        · intro k positive inside
          rcases Nat.lt_or_ge state.height k with new | old
          · obtain ⟨room, rfl⟩ := NumberedShelf.raise_gains new inside
            have present := (fills state.height).mpr (Nat.le_refl _)
            exact List.mem_append_right _ (mem_given_iff.mpr ⟨_, room, present, rfl⟩)
          · exact List.mem_append_left _ (numbered k positive old)
      · rename_i calm
        rw [shelve, if_neg calm] at shelf
        obtain rfl := Option.some.inj stepped
        exact ⟨nextAttached, shelf ▸ fills.renew _, numbered⟩
  | reopen maxSize maxBackups interval env =>
      rw [shelve] at shelf
      obtain ⟨reached, _, rfl⟩ := Option.map_eq_some_iff.mp stepped
      exact ⟨nextAttached, shelf ▸ fills, numbered⟩

theorem stacked_first {path : Text} {maxSize maxBackups : Nat} {interval : RotationInterval}
    {opening : OpenEnv} {disk : Volume} {first : World} (free : opening.Faultless)
    (attached : first.Attached) (unnumbered : ∀ k, disk.links (slotPath path (k + 1)) = none)
    (opened : openWith path maxSize maxBackups interval opening disk =
      (.ok first.sink, first.disk)) : Stacked first.numbered := by
  constructor
  · exact attached
  · intro k
    cases k with
    | zero => exact iff_of_true (shelf_active attached) (Nat.le_refl 0)
    | succ k =>
        apply iff_of_false
        · have absent := shelf_openWith free opened k
          rw [Disk.read, unnumbered k] at absent
          exact not_not.mpr absent
        · exact Nat.not_succ_le_zero k
  · intro k positive inside
    exact absurd inside (Nat.not_le.mpr positive)

/-- A run without faults. -/
theorem exists_run_numberStep {state : Numbered} {events : List Event}
    (attached : state.world.Attached) (free : ∀ event ∈ events, event.Free) :
    ∃ target, run numberStep state events = some target ∧
      run Rotation.step state.world events = some target.world := by
  induction events generalizing state with
  | nil => exact ⟨state, rfl, rfl⟩
  | cons event events inductionHypothesis =>
      have first := free event List.mem_cons_self
      obtain ⟨next, stepped⟩ := exists_numberStep attached first
      obtain ⟨target, ran, reached⟩ := inductionHypothesis
        (attached_numberStep attached first stepped)
        fun later member => free later (List.mem_cons_of_mem event member)
      exact ⟨target, (run_cons_eq_some numberStep).mpr ⟨next, stepped, ran⟩,
        (run_cons_eq_some Rotation.step).mpr ⟨next.world, world_of_numberStep stepped, reached⟩⟩

/-- The number of backups stays bounded exactly when no rotation of the run is
made with fewer backups than the number of a backup that the run has made and
that is still there.  Where no file was numbered at first, this compares two
numbers: the number of backups and the height that earlier rotations gave. -/
theorem trimmed_iff (path : Text) (maxSize maxBackups : Nat) (interval : RotationInterval)
    (disk : Volume) {opening : OpenEnv} (free : opening.Faultless) {events : List Event}
    (faultless : ∀ event ∈ events, event.Free) :
    ∃ (first : World) (target : Numbered),
      openWith path maxSize maxBackups interval opening disk = (.ok first.sink, first.disk) ∧
      run numberStep first.numbered events = some target ∧
      run step first events = some target.world ∧
      (AllSteps numberStep (AtRotation Trimmed) first.numbered events ↔
        AllSteps numberStep (AtRotation Covers) first.numbered events) ∧
      ((∀ k, disk.links (slotPath path (k + 1)) = none) →
        (AllSteps numberStep (AtRotation Trimmed) first.numbered events ↔
          AllSteps numberStep (AtRotation HasRoom) first.numbered events)) := by
  obtain ⟨first, opened, attached, _⟩ :=
    openWith_faultless path maxSize maxBackups interval free disk
  obtain ⟨target, ran, reached⟩ := @exists_run_numberStep first.numbered events attached faultless
  have atRotation : ∀ {condition other : Numbered → WriteEnv → Bytes → Prop} {state : Numbered}
      {event : Event}, event.Free →
      (∀ env bytes, env.verdicts = .faultless → rotationDue env bytes state.world.sink = true →
        (condition state env bytes ↔ other state env bytes)) →
      (AtRotation condition state event ↔ AtRotation other state event) := by
    intro condition other state event eventFree same
    cases event with
    | write env bytes => exact imp_congr_right fun due => same env bytes eventFree due
    | reopen => exact Iff.rfl
  refine ⟨first, target, opened, ran, reached, ?_, fun unnumbered => ?_⟩
  · apply @allSteps_congr _ _ _ (fun state => state.world.Attached) Event.Free
    · exact attached_numberStep
    · intro state event stateAttached eventFree
      exact atRotation eventFree fun env bytes => trimmed_iff_covers stateAttached
    · exact attached
    · exact faultless
  · apply @allSteps_congr _ _ _ Stacked Event.Free
    · exact Stacked.step
    · intro state event stacked eventFree
      exact atRotation eventFree fun env bytes envFree due =>
        (trimmed_iff_covers stacked.attached envFree due).trans stacked.covers_iff
    · exact stacked_first free attached unnumbered opened
    · exact faultless

/-- Three records make two backups; then the path is opened again with one. -/
def shrinking : List Event :=
  [.write ⟨0, 0, 0, 0, .faultless⟩ [1], .write ⟨0, 0, 0, 0, .faultless⟩ [2],
    .write ⟨0, 0, 0, 0, .faultless⟩ [3], .reopen 1 1 .never ⟨true, true, true, true, 0, 0⟩]

/-- The sink opened on an unused path, with two backups. -/
def twoBackups : World where
  sink :=
    { path := "a".toList, file := 0, maxSize := 1, maxBackups := 2, size := 0,
      interval := .never, intervalStart := none }
  disk := Disk.empty.create "a".toList 0

theorem shrinking_free : ∀ event ∈ shrinking ++ [.write ⟨0, 0, 0, 0, .faultless⟩ [4]],
    event.Free := by
  intro event member
  simp only [shrinking, List.cons_append, List.nil_append, List.mem_cons, List.not_mem_nil,
    or_false] at member
  rcases member with rfl | rfl | rfl | rfl | rfl
  · rfl
  · rfl
  · rfl
  · exact ⟨rfl, rfl, rfl, rfl⟩
  · rfl

theorem trimmed_iff_shrinking :
    ∃ (first : World) (target : Numbered),
      openWith "a".toList 1 2 .never ⟨true, true, true, true, 0, 0⟩ Disk.empty =
        (.ok first.sink, first.disk) ∧
      run numberStep first.numbered (shrinking ++ [.write ⟨0, 0, 0, 0, .faultless⟩ [4]]) =
        some target ∧
      (AllSteps numberStep (AtRotation Trimmed) first.numbered
          (shrinking ++ [.write ⟨0, 0, 0, 0, .faultless⟩ [4]]) ↔
        AllSteps numberStep (AtRotation HasRoom) first.numbered
          (shrinking ++ [.write ⟨0, 0, 0, 0, .faultless⟩ [4]])) := by
  obtain ⟨first, target, opened, ran, _, _, unnumbered⟩ := @trimmed_iff "a".toList 1 2 .never
    Disk.empty ⟨true, true, true, true, 0, 0⟩ ⟨rfl, rfl, rfl, rfl⟩ _ shrinking_free
  exact ⟨first, target, opened, ran, unnumbered fun _ => rfl⟩

/-- The next write rotates and leaves the second backup, beyond its limit. -/
def leavesSecond (state : Numbered) : Bool :=
  rotationDue ⟨0, 0, 0, 0, .faultless⟩ [4] state.world.sink && state.numbers.contains 2 &&
    state.world.sink.maxBackups.blt 2 &&
    ((writeBytes ⟨0, 0, 0, 0, .faultless⟩ [4] state.world).1.disk.read
      (slotPath state.world.sink.path 2)).isSome

/-- A rotation leaves a backup of an earlier configuration. -/
theorem not_forall_trimmed :
    ¬ ∀ (path : Text) (maxSize maxBackups : Nat) (interval : RotationInterval) (disk : Volume)
      (opening : OpenEnv) (events : List Event) (first : World),
      opening.Faultless → (∀ event ∈ events, event.Free) →
      openWith path maxSize maxBackups interval opening disk = (.ok first.sink, first.disk) →
      AllSteps numberStep (AtRotation Trimmed) first.numbered events := by
  intro always
  have trimmed := always "a".toList 1 2 .never Disk.empty ⟨true, true, true, true, 0, 0⟩
    (shrinking ++ [.write ⟨0, 0, 0, 0, .faultless⟩ [4]]) twoBackups ⟨rfl, rfl, rfl, rfl⟩
    shrinking_free rfl
  have left : (run numberStep twoBackups.numbered shrinking).any leavesSecond = true := by
    decide +kernel
  obtain ⟨state, ran, holds⟩ := (Option.any_eq_true _ _).mp left
  simp only [leavesSecond, Bool.and_eq_true, List.contains_iff_mem, Nat.blt_eq,
    Option.isSome_iff_ne_none] at holds
  obtain ⟨⟨⟨due, given⟩, above⟩, stays⟩ := holds
  have last := (allSteps_append.mp trimmed).2 state ran
  exact stays (last.1 due 2 given above)

end XosLog.Rotation
