import Mathlib.Data.Finset.Card
import Mathlib.Data.Fintype.Card
import XosLog.Rotation.Alignment
import XosLog.Rotation.SharedPath

/-!
# Sinks that share a path and an interval

Every process that logs to the path rotates at the same boundaries, at its first write
in a new slot.  So in one slot each of the other sinks rotates at most once after a
sink has, and its file is never further back than there are other sinks.
-/

namespace XosLog.Rotation

open FileSystem Transition

universe u

/-! ## Slots as numbers -/

/-- The slot of an instant, and zero when the interval has no slots. -/
def slotAt (interval : RotationInterval) (now : Instant) : Nat :=
  (interval.slotStart now).getD 0

/-- The slot of a sink. -/
def FileSink.slot (sink : FileSink) : Nat :=
  sink.intervalStart.getD 0

theorem slotAt_mono (interval : RotationInterval) {earlier later : Instant}
    (le : earlier ≤ later) : slotAt interval earlier ≤ slotAt interval later := by
  unfold slotAt
  rcases interval.slotStart_mono le with ⟨first, last⟩ | ⟨slot, nowSlot, first, last, ordered⟩
  · rw [first, last]
  · rwa [first, last]

theorem slotAt_of_none {interval : RotationInterval} {instant : Instant}
    (none : interval.slotStart instant = none) (now : Instant) : slotAt interval now = 0 := by
  rw [slotAt, (interval.slotStart_eq_none_iff instant now).mp none]
  rfl

/-- The slot of a sink has ended when the clock is in a later one. -/
theorem intervalElapsed_iff {sink : FileSink} {began : Instant}
    (since : sink.intervalStart = sink.interval.slotStart began) (now : Instant) :
    sink.intervalElapsed now = true ↔ sink.slot < slotAt sink.interval now := by
  unfold FileSink.intervalElapsed FileSink.slot slotAt
  rw [since]
  cases first : sink.interval.slotStart began with
  | none =>
      rw [(sink.interval.slotStart_eq_none_iff began now).mp first]
      simp
  | some opened =>
      cases last : sink.interval.slotStart now with
      | none =>
          rw [(sink.interval.slotStart_eq_none_iff now began).mp last] at first
          contradiction
      | some current => simp

theorem unixSecs_seconds (secs : Nat) : unixSecs ((secs : Int) * 1000000000) = secs := by
  have whole := unixSecs_of_nonneg (Int.mul_nonneg (Int.natCast_nonneg secs)
    (by decide : (0 : Int) ≤ 1000000000))
  rw [Int.mul_ediv_cancel _ (by decide)] at whole
  exact Int.ofNat.inj whole

theorem le_seconds {now : Instant} {secs : Nat} (less : unixSecs now < secs) :
    now ≤ (secs : Int) * 1000000000 := by
  by_cases after : 0 ≤ now
  · have below : now / 1000000000 < (secs : Int) := by
      rw [← unixSecs_of_nonneg after]
      exact Int.ofNat_lt.mpr less
    exact Int.le_of_lt (Int.lt_mul_of_ediv_lt (by decide) below)
  · exact Int.le_trans (Int.le_of_lt (Int.not_le.mp after))
      (Int.mul_nonneg (Int.natCast_nonneg secs) (by decide))

theorem isoWeekStartSecs_add_week (secs : Nat) :
    isoWeekStartSecs secs < isoWeekStartSecs (secs + 604800) := by
  unfold isoWeekStartSecs
  dsimp only
  rw [Nat.cast_add]
  split_ifs <;> omega

/-- An interval that has slots has a later one at any time. -/
theorem exists_later_slot {interval : RotationInterval} {instant : Instant}
    (enabled : interval.slotStart instant ≠ none) (now : Instant) :
    ∃ later, now ≤ later ∧ slotAt interval now < slotAt interval later := by
  have ofSeconds : ∀ (kind : RotationInterval) (slot : Nat → Nat),
      (∀ instant, kind.slotStart instant = some (slot (unixSecs instant))) →
      (∃ secs, unixSecs now < secs ∧ slot (unixSecs now) < slot secs) →
      ∃ later, now ≤ later ∧ slotAt kind now < slotAt kind later := by
    rintro kind slot slots ⟨secs, below, less⟩
    refine ⟨_, le_seconds below, ?_⟩
    rwa [slotAt, slotAt, slots, slots, unixSecs_seconds, Option.getD_some, Option.getD_some]
  have periodic : ∀ {period : Nat}, 0 < period →
      ∃ secs, unixSecs now < secs ∧ unixSecs now / period * period < secs / period * period := by
    intro period positive
    refine ⟨(unixSecs now / period + 1) * period, ?_, ?_⟩
    · exact Nat.lt_mul_of_div_lt (Nat.lt_succ_self _) positive
    · rw [Nat.mul_div_cancel _ positive]
      exact Nat.mul_lt_mul_of_pos_right (Nat.lt_succ_self _) positive
  cases interval with
  | never => exact absurd rfl enabled
  | hourly =>
      exact ofSeconds .hourly (fun secs => secs / RotationInterval.hourSecs *
        RotationInterval.hourSecs) (fun _ => rfl) (periodic (by decide))
  | daily =>
      exact ofSeconds .daily (fun secs => secs / RotationInterval.daySecs *
        RotationInterval.daySecs) (fun _ => rfl) (periodic (by decide))
  | weekly =>
      exact ofSeconds .weekly isoWeekStartSecs (fun _ => rfl)
        ⟨_, Nat.lt_add_of_pos_right (by decide), isoWeekStartSecs_add_week _⟩
  | every duration =>
      have positive : duration.secs ≠ 0 := fun zero => enabled (slotStart_every_zero zero _)
      exact ofSeconds (.every duration) (fun secs => secs / duration.secs * duration.secs)
        (slotStart_every positive) (periodic (Nat.pos_of_ne_zero positive))

/-! ## The clock -/

/-- Turns under a clock that does not go backwards. -/
def Clocked {ι : Type u} : Instant → List (ι × Event) → Prop
  | _, [] => True
  | now, (_, .write env _) :: turns =>
      now ≤ env.checked ∧ env.checked ≤ env.reopened ∧ env.reopened ≤ env.rotated ∧
        env.rotated ≤ env.written ∧ Clocked env.written turns
  | now, (_, .reopen _ _ _ env) :: turns =>
      now ≤ env.opened ∧ env.opened ≤ env.checked ∧ Clocked env.checked turns

/-- The instant at which an event ends. -/
def Event.ends : Event → Instant
  | .write env _ => env.written
  | .reopen _ _ _ env => env.checked

/-- The event meets no fault, writes something and keeps the settings of the path: no
size limit, the number of backups and the interval. -/
def Event.OfInterval (maxBackups : Nat) (interval : RotationInterval) : Event → Prop
  | .write env bytes => env.verdicts = .faultless ∧ bytes ≠ []
  | .reopen maxSize newMaxBackups newInterval env =>
      maxSize = 0 ∧ newMaxBackups = maxBackups ∧ newInterval = interval ∧ env.Faultless

theorem Event.OfInterval.faultless {maxBackups : Nat} {interval : RotationInterval}
    {event : Event} (allowed : event.OfInterval maxBackups interval) :
    event.Faultless maxBackups := by
  cases event with
  | write env bytes => exact allowed.1
  | reopen maxSize newMaxBackups newInterval env => exact ⟨allowed.2.1, allowed.2.2.2⟩

theorem Clocked.cons {ι : Type u} {now : Instant} {turn : ι × Event} {turns : List (ι × Event)}
    (clocked : Clocked now (turn :: turns)) :
    now ≤ turn.2.ends ∧ Clocked turn.2.ends turns := by
  obtain ⟨i, event⟩ := turn
  cases event with
  | write env bytes =>
      obtain ⟨first, second, third, fourth, rest⟩ := clocked
      exact ⟨Int.le_trans first (Int.le_trans second (Int.le_trans third fourth)), rest⟩
  | reopen maxSize maxBackups interval env =>
      obtain ⟨first, second, rest⟩ := clocked
      exact ⟨Int.le_trans first second, rest⟩

/-! ## One slot at a time -/

variable {ι : Type u} [DecidableEq ι] [Fintype ι]

/-- The other sinks that are in the slot of an instant. -/
def followers (interval : RotationInterval) (now : Instant) (pool : Pool ι) (i : ι) : Finset ι :=
  Finset.univ.filter fun j => j ≠ i ∧ (pool.sinks j).slot = slotAt interval now

/-- Sinks with one interval and no size limit, at an instant.  A sink that is in the
slot of the clock has been followed by at most the others that are in it. -/
structure Aligned (path : Text) (interval : RotationInterval) (now : Instant) (pool : Pool ι)
    (shared : SharedShelf ι Bytes) : Prop where
  unlimited : ∀ i, (pool.sinks i).maxSize = 0
  interval_eq : ∀ i, (pool.sinks i).interval = interval
  began : ∀ i, ∃ instant ≤ now, (pool.sinks i).intervalStart = interval.slotStart instant
  dated : ∀ file, pool.disk.links path = some file → (pool.disk.inodes file).modified ≤ now ∧
    ∀ i, (pool.sinks i).slot ≤ slotAt interval (pool.disk.inodes file).modified
  followed : ∀ i, slotAt interval now ≤ (pool.sinks i).slot →
    shared.age i ≤ (followers interval now pool i).card
  still : interval.slotStart now = none → ∀ i, shared.age i = 0

/-- A rotation that succeeds restarts the sink. -/
theorem restart_of_rotate {env : WriteEnv} {world : World}
    (rotated : (rotate env world).2 = .ok ()) :
    ∃ file, (rotate env world).1.sink = restart world.sink env file := by
  by_cases flushed : env.verdicts.flush = true
  · rcases Nat.eq_zero_or_pos world.sink.maxBackups with truncates | keeps
    · rw [rotate_of_truncates env world truncates flushed] at rotated ⊢
      split at rotated
      · contradiction
      · exact ⟨_, rfl⟩
    · rw [rotate_of_keeps env world keeps flushed] at rotated ⊢
      split_ifs at rotated ⊢
      exact ⟨_, rfl⟩
  · rw [rotate_of_not_flushed env world flushed] at rotated
    contradiction

omit [Fintype ι] in
/-- A write that rotates leaves the sink on a new active file, just written. -/
theorem Shares.writeBytes_due {path : Text} {maxBackups : Nat} {pool : Pool ι}
    {shared : SharedShelf ι Bytes} (shares : Shares path maxBackups pool shared) (i : ι)
    {env : WriteEnv} {bytes : Bytes} (free : env.verdicts = .faultless) (some : bytes ≠ [])
    (due : rotationDue env bytes (pool.sinks i) = true) :
    (writeBytes env bytes (pool.world i)).1.sink =
        { restart (pool.sinks i) env (writeBytes env bytes (pool.world i)).1.sink.file with
          size := bytes.length } ∧
      (writeBytes env bytes (pool.world i)).1.disk.links path =
        Option.some (writeBytes env bytes (pool.world i)).1.sink.file ∧
      ((writeBytes env bytes (pool.world i)).1.disk.inodes
        (writeBytes env bytes (pool.world i)).1.sink.file).modified = env.written := by
  have rotated := (shares.rotate i env free).2
  obtain ⟨file, restarted⟩ := restart_of_rotate rotated
  have attached := attached_appendBytes env bytes (attached_rotate env _ rotated)
  rcases writeBytes_cases env bytes (pool.world i) with
    ⟨calm, _⟩ | ⟨_, ⟨error, failed, _⟩ | ⟨_, same⟩⟩
  · rw [Pool.world_sink, due] at calm
    contradiction
  · rw [rotated] at failed
    contradiction
  · rw [World.Attached, appendBytes_path, rotate_path, Pool.world_sink, shares.path_eq i]
      at attached
    rw [same]
    refine ⟨?_, attached, ?_⟩
    · rw [appendBytes_faultless env bytes _ free, restarted]
      simp [restart]
    · rw [appendBytes_faultless env bytes _ free, Disk.modified_append, if_pos ⟨rfl, some⟩]

theorem card_followers_lt (interval : RotationInterval) (now : Instant) (pool : Pool ι) (i : ι) :
    (followers interval now pool i).card < Fintype.card ι := by
  apply Finset.card_lt_univ_of_notMem (x := i)
  simp [followers]

/-- A sink that restarts in the slot of another one joins those that follow it. -/
theorem age_lt_card_followers {interval : RotationInterval} {pool : Pool ι}
    {shared : SharedShelf ι Bytes} {i j : ι} {checked written : Instant} {world : World}
    (other : j ≠ i) (elapsed : (pool.sinks i).slot < slotAt interval checked)
    (own : world.sink.slot = slotAt interval checked)
    (same : slotAt interval written = slotAt interval checked)
    (followed : shared.age j ≤ (followers interval checked pool j).card) :
    shared.age j + 1 ≤ (followers interval written (pool.put i world) j).card := by
  have outside : i ∉ followers interval checked pool j := by
    intro member
    exact Nat.ne_of_lt elapsed (Finset.mem_filter.mp member).2.2
  have joined : insert i (followers interval checked pool j) ⊆
      followers interval written (pool.put i world) j := by
    intro k member
    rw [followers, Finset.mem_filter, same]
    refine ⟨Finset.mem_univ _, ?_⟩
    rcases Finset.mem_insert.mp member with rfl | before
    · rw [Pool.put_sinks_self]
      exact ⟨fun equal => other equal.symm, own⟩
    · obtain ⟨_, different, slot⟩ := Finset.mem_filter.mp before
      have notOwn : k ≠ i := by
        rintro rfl
        exact Nat.ne_of_lt elapsed slot
      rw [Pool.put_sinks_of_ne _ _ notOwn]
      exact ⟨different, slot⟩
  have more := Finset.card_le_card joined
  rw [Finset.card_insert_of_notMem outside] at more
  exact Nat.le_trans (Nat.succ_le_succ followed) more

section

variable {path : Text} {maxBackups : Nat} {interval : RotationInterval} {now : Instant}
  {pool : Pool ι} {shared : SharedShelf ι Bytes} (aligned : Aligned path interval now pool shared)

include aligned

theorem Aligned.slot_le (i : ι) : (pool.sinks i).slot ≤ slotAt interval now := by
  obtain ⟨instant, past, since⟩ := aligned.began i
  rw [FileSink.slot, since]
  exact slotAt_mono interval past

/-- A write rotates when the slot of the sink has ended. -/
theorem Aligned.due_iff (i : ι) (env : WriteEnv) (bytes : Bytes) :
    rotationDue env bytes (pool.sinks i) = true ↔
      (pool.sinks i).slot < slotAt interval env.checked := by
  obtain ⟨instant, _, since⟩ := aligned.began i
  have small : (pool.sinks i).sizeHit bytes = false := by
    simp [FileSink.sizeHit, aligned.unlimited i]
  rw [← aligned.interval_eq i] at since
  rw [rotationDue, small, Bool.false_or, intervalElapsed_iff since, aligned.interval_eq i]

theorem Aligned.later {later : Instant} (le : now ≤ later) :
    Aligned path interval later pool shared := by
  constructor
  · exact aligned.unlimited
  · exact aligned.interval_eq
  · intro i
    obtain ⟨instant, past, since⟩ := aligned.began i
    exact ⟨instant, Int.le_trans past le, since⟩
  · intro file linked
    obtain ⟨past, slots⟩ := aligned.dated file linked
    exact ⟨Int.le_trans past le, slots⟩
  · intro i current
    have same : slotAt interval later = slotAt interval now :=
      Nat.le_antisymm (Nat.le_trans current (aligned.slot_le i)) (slotAt_mono interval le)
    rw [same] at current
    rw [followers, same]
    exact aligned.followed i current
  · exact fun none => aligned.still ((interval.slotStart_eq_none_iff later now).mp none)

/-- A backup for each of the others is enough to keep the file of a sink under a name
until the sink rotates. -/
def Enough (ι : Type u) [Fintype ι] (maxBackups : Nat) (interval : RotationInterval)
    (now : Instant) : Prop :=
  maxBackups = 0 ∨ Fintype.card ι ≤ maxBackups + 1 ∨ interval.slotStart now = none

theorem Aligned.not_orphaned (shares : Shares path maxBackups pool shared)
    (enough : Enough ι maxBackups interval now) (i : ι)
    (current : slotAt interval now ≤ (pool.sinks i).slot) :
    ¬ Orphaned path maxBackups pool i := by
  rw [shares.orphaned_iff i]
  apply Nat.not_lt.mpr
  rcases enough with none | enough | none
  · exact absurd none (Nat.ne_of_gt shares.keeps)
  · have few := card_followers_lt interval now pool i
    have followed := aligned.followed i current
    omega
  · rw [aligned.still none i]
    exact Nat.zero_le _

/-- A write in the slot of the sink. -/
theorem Aligned.calm (i : ι) (env : WriteEnv)
    (bytes : Bytes) (free : env.verdicts = .faultless) (le : now ≤ env.written) :
    Aligned path interval env.written (pool.put i (appendBytes env bytes (pool.world i)).1)
      (shared.write maxBackups i bytes) := by
  have later := aligned.later le
  have outcome := appendBytes_faultless env bytes (pool.world i) free
  have kept : ∀ {γ : Type} (part : FileSink → γ),
      part { pool.sinks i with size := (pool.sinks i).size + bytes.length } =
        part (pool.sinks i) →
      ∀ j, part ((pool.put i (appendBytes env bytes (pool.world i)).1).sinks j) =
        part (pool.sinks j) := by
    intro γ part same j
    rw [outcome]
    exact Pool.put_keeps part same j
  have sameAge : (shared.write maxBackups i bytes).age = shared.age := by
    unfold SharedShelf.write
    split <;> rfl
  have sameSlot := kept FileSink.slot rfl
  constructor
  · exact fun j => (kept FileSink.maxSize rfl j).trans (aligned.unlimited j)
  · exact fun j => (kept FileSink.interval rfl j).trans (aligned.interval_eq j)
  · intro j
    rw [kept FileSink.intervalStart rfl j]
    exact later.began j
  · intro file linked
    rw [Pool.put_disk, appendBytes_links] at linked
    obtain ⟨past, slots⟩ := later.dated file linked
    simp only [sameSlot]
    rw [Pool.put_disk, outcome, Disk.modified_append]
    split
    · exact ⟨Int.le_refl _, later.slot_le⟩
    · exact ⟨past, slots⟩
  · intro j current
    rw [sameSlot] at current
    rw [sameAge, followers]
    simp only [sameSlot]
    exact later.followed j current
  · intro none j
    rw [sameAge]
    exact later.still none j

/-- A write in a later slot: the sink rotates and follows the others. -/
theorem Aligned.due (shares : Shares path maxBackups pool shared) (i : ι) (env : WriteEnv)
    {bytes : Bytes} (free : env.verdicts = .faultless) (some : bytes ≠ [])
    (checked : now ≤ env.checked) (reopened : env.checked ≤ env.rotated)
    (written : env.rotated ≤ env.written)
    (due : rotationDue env bytes (pool.sinks i) = true) :
    Aligned path interval env.written (pool.put i (writeBytes env bytes (pool.world i)).1)
      (share maxBackups pool (i, .write env bytes) shared) := by
  have current := aligned.later checked
  have elapsed := (aligned.due_iff i env bytes).mp due
  obtain ⟨sink, linked, modified⟩ := shares.writeBytes_due i free some due
  generalize (writeBytes env bytes (pool.world i)).1 = world at sink linked modified
  have began : world.sink.intervalStart = interval.slotStart env.rotated := by
    rw [sink, ← aligned.interval_eq i]
    rfl
  have ownSlot : world.sink.slot = slotAt interval env.rotated := by
    rw [FileSink.slot, began, slotAt]
  have ended : env.checked ≤ env.written := Int.le_trans reopened written
  have later := current.later ended
  constructor
  · apply Pool.forall_put (fun _ sink => sink.maxSize = 0)
    · rw [sink]
      exact aligned.unlimited i
    · exact fun j _ => aligned.unlimited j
  · apply Pool.forall_put (fun _ sink => sink.interval = interval)
    · rw [sink]
      exact aligned.interval_eq i
    · exact fun j _ => aligned.interval_eq j
  · apply Pool.forall_put (fun _ sink =>
      ∃ instant ≤ env.written, sink.intervalStart = interval.slotStart instant)
    · exact ⟨env.rotated, written, began⟩
    · exact fun j _ => later.began j
  · intro file isActive
    rw [Pool.put_disk, linked] at isActive
    obtain rfl := Option.some.inj isActive
    rw [Pool.put_disk, modified]
    refine ⟨Int.le_refl _, ?_⟩
    apply Pool.forall_put (fun _ sink => sink.slot ≤ slotAt interval env.written)
    · rw [ownSlot]
      exact slotAt_mono interval written
    · exact fun j _ => later.slot_le j
  · intro j inSlot
    have age : (share maxBackups pool (i, .write env bytes) shared).age j =
        if j = i then 0 else shared.age j + 1 := by
      rw [← @SharedShelf.age_push _ _ _ maxBackups i]
      simp only [share, due, if_true, SharedShelf.write]
      split <;> rfl
    rw [age]
    by_cases same : j = i
    · rw [if_pos same]
      exact Nat.zero_le _
    · -- the slot of `j` is that of the clock throughout the write, so `i` was not in it
      rw [if_neg same]
      rw [Pool.put_sinks_of_ne _ _ same] at inSlot
      have first : slotAt interval env.written = slotAt interval env.checked :=
        Nat.le_antisymm (Nat.le_trans inSlot (current.slot_le j)) (slotAt_mono interval ended)
      have second : slotAt interval env.rotated = slotAt interval env.checked :=
        Nat.le_antisymm (Nat.le_trans (slotAt_mono interval written) (Nat.le_of_eq first))
          (slotAt_mono interval reopened)
      have followed := current.followed j (Nat.le_trans (Nat.le_of_eq first.symm) inSlot)
      exact age_lt_card_followers same elapsed (ownSlot.trans second) first followed
  · intro none
    rw [slotAt_of_none none] at elapsed
    exact absurd elapsed (Nat.not_lt_zero _)

/-- A sink that is opened again follows the others, in the slot of the active file. -/
theorem Aligned.reopen (i : ι) {file : Nat} (linked : pool.disk.links path = some file) :
    Aligned path interval now
      (pool.put i ⟨sinkOn path file 0 maxBackups interval pool.disk, pool.disk⟩)
      (shared.attach i) := by
  obtain ⟨past, slots⟩ := aligned.dated file linked
  generalize isSink : sinkOn path file 0 maxBackups interval pool.disk = sink
  have began : sink.intervalStart = interval.slotStart (pool.disk.inodes file).modified := by
    rw [← isSink]
    rfl
  have ownSlot : sink.slot = slotAt interval (pool.disk.inodes file).modified := by
    rw [FileSink.slot, began, slotAt]
  have bound : ∀ j, ((pool.put i ⟨sink, pool.disk⟩).sinks j).slot ≤
      slotAt interval (pool.disk.inodes file).modified := by
    apply Pool.forall_put (fun _ sink => sink.slot ≤ _)
    · exact Nat.le_of_eq ownSlot
    · exact fun j _ => slots j
  have grows : ∀ j, (pool.sinks j).slot ≤ ((pool.put i ⟨sink, pool.disk⟩).sinks j).slot := by
    apply Pool.forall_put (fun j sink => (pool.sinks j).slot ≤ sink.slot)
    · rw [ownSlot]
      exact slots i
    · exact fun j _ => Nat.le_refl _
  constructor
  · apply Pool.forall_put (fun _ sink => sink.maxSize = 0)
    · rw [← isSink]
      rfl
    · exact fun j _ => aligned.unlimited j
  · apply Pool.forall_put (fun _ sink => sink.interval = interval)
    · rw [← isSink]
      rfl
    · exact fun j _ => aligned.interval_eq j
  · apply Pool.forall_put (fun _ sink =>
      ∃ instant ≤ now, sink.intervalStart = interval.slotStart instant)
    · exact ⟨_, past, began⟩
    · exact fun j _ => aligned.began j
  · intro found isActive
    rw [Pool.put_disk, linked] at isActive
    obtain rfl := Option.some.inj isActive
    exact ⟨past, bound⟩
  · intro j inSlot
    by_cases same : j = i
    · subst same
      simp [SharedShelf.attach]
    · rw [Pool.put_sinks_of_ne _ _ same] at inSlot
      simp only [SharedShelf.attach, Function.update_of_ne same]
      refine Nat.le_trans (aligned.followed j inSlot) (Finset.card_le_card ?_)
      intro k member
      obtain ⟨_, different, slot⟩ := Finset.mem_filter.mp member
      refine Finset.mem_filter.mpr ⟨Finset.mem_univ _, different, Nat.le_antisymm ?_ ?_⟩
      · exact Nat.le_trans (bound k) (slotAt_mono interval past)
      · rw [← slot]
        exact grows k
  · intro none j
    by_cases same : j = i
    · exact same ▸ Function.update_self _ _ _
    · exact (Function.update_of_ne same _ _).trans (aligned.still none j)

/-- One event. -/
theorem Aligned.step (shares : Shares path maxBackups pool shared) {turn : ι × Event}
    {turns : List (ι × Event)} (clocked : Clocked now (turn :: turns))
    (allowed : turn.2.OfInterval maxBackups interval) {next : Pool ι}
    (stepped : pool.step turn = some next) :
    Aligned path interval turn.2.ends next (share maxBackups pool turn shared) := by
  obtain ⟨i, event⟩ := turn
  cases event with
  | write env bytes =>
      obtain ⟨checked, reopened, rotated, written, _⟩ := clocked
      obtain ⟨free, nonempty⟩ := allowed
      have started := Int.le_trans reopened rotated
      obtain rfl := Option.some.inj stepped
      cases due : rotationDue env bytes (pool.sinks i) with
      | true => exact aligned.due shares i env free nonempty checked started written due
      | false =>
          have ended := Int.le_trans checked (Int.le_trans started written)
          have same : writeBytes env bytes (pool.world i) =
              appendBytes env bytes (pool.world i) := by
            rw [writeBytes, Pool.world_sink, due, if_neg Bool.false_ne_true]
          rw [same]
          simp only [share, due, Bool.false_eq_true, if_false]
          exact aligned.calm i env bytes free ended
  | reopen maxSize newMaxBackups newInterval env =>
      obtain ⟨opened, checked, _⟩ := clocked
      obtain ⟨rfl, rfl, rfl, free⟩ := allowed
      obtain ⟨file, linked⟩ := Option.ne_none_iff_exists'.mp shares.active
      rw [shares.step_reopen i free linked] at stepped
      obtain rfl := Option.some.inj stepped
      exact (aligned.reopen i linked).later (Int.le_trans opened checked)

/-- With enough backups no write goes to a file without a name. -/
theorem Aligned.stray_eq_nil (shares : Shares path maxBackups pool shared)
    (enough : Enough ι maxBackups interval now) {turn : ι × Event} {turns : List (ι × Event)}
    (clocked : Clocked now (turn :: turns)) : stray path maxBackups pool turn = [] := by
  obtain ⟨i, event⟩ := turn
  cases event with
  | reopen maxSize newMaxBackups newInterval env => rfl
  | write env bytes =>
      have current := aligned.later clocked.1
      have stillEnough : Enough ι maxBackups interval env.checked :=
        enough.imp_right (Or.imp_right (interval.slotStart_eq_none_iff now env.checked).mp)
      apply if_neg
      rintro ⟨calm, orphaned⟩
      refine current.not_orphaned shares stillEnough i ?_ orphaned
      rw [← Nat.not_lt, ← aligned.due_iff i env bytes, calm]
      exact Bool.false_ne_true

end

theorem Aligned.run {path : Text} {maxBackups : Nat} {interval : RotationInterval} {now : Instant}
    {pool : Pool ι} {shared : SharedShelf ι Bytes} (aligned : Aligned path interval now pool shared)
    (shares : Shares path maxBackups pool shared) (enough : Enough ι maxBackups interval now)
    {turns : List (ι × Event)} (clocked : Clocked now turns)
    (allowed : ∀ turn ∈ turns, turn.2.OfInterval maxBackups interval) :
    observed Pool.step (stray path maxBackups) pool turns = [] := by
  induction turns generalizing now pool shared with
  | nil => rfl
  | cons turn turns inductionHypothesis =>
      have first := allowed turn List.mem_cons_self
      obtain ⟨next, stepped, nextShares⟩ := shares.step first.faultless
      have stillEnough : Enough ι maxBackups interval turn.2.ends :=
        enough.imp_right (Or.imp_right (interval.slotStart_eq_none_iff now turn.2.ends).mp)
      rw [observed_cons stepped, aligned.stray_eq_nil shares enough clocked, List.nil_append]
      exact inductionHypothesis (aligned.step shares clocked first stepped) nextShares stillEnough
        clocked.cons.2 fun later member => allowed later (List.mem_cons_of_mem turn member)

/-! ## Too many sinks -/

/-- A write during which the clock stands still. -/
def callAt (instant : Instant) : WriteEnv where
  checked := instant
  reopened := instant
  rotated := instant
  written := instant
  verdicts := .faultless

/-- The sinks write one byte each, one after another, at one instant. -/
def roundAt (instant : Instant) (order : List ι) : List (ι × Event) :=
  order.map fun i => (i, .write (callAt instant) [0])

omit [DecidableEq ι] [Fintype ι] in
theorem clocked_roundAt {now instant : Instant} (le : now ≤ instant) (order : List ι) :
    Clocked now (roundAt instant order) := by
  induction order generalizing now with
  | nil => trivial
  | cons i order inductionHypothesis =>
      exact ⟨le, Int.le_refl _, Int.le_refl _, Int.le_refl _,
        inductionHypothesis (Int.le_refl _)⟩

omit [DecidableEq ι] [Fintype ι] in
theorem ofInterval_roundAt (maxBackups : Nat) (interval : RotationInterval) (instant : Instant)
    (order : List ι) :
    ∀ turn ∈ roundAt instant order, turn.2.OfInterval maxBackups interval := by
  intro turn member
  obtain ⟨i, _, rfl⟩ := List.mem_map.mp member
  exact ⟨rfl, List.cons_ne_nil _ _⟩

/-- Each of the sinks that are still in an earlier slot overtakes the one that is not. -/
theorem Aligned.overtaken {path : Text} {maxBackups : Nat} {interval : RotationInterval}
    {now instant : Instant} {pool : Pool ι} {shared : SharedShelf ι Bytes}
    (aligned : Aligned path interval now pool shared) (shares : Shares path maxBackups pool shared)
    (le : now ≤ instant) {i : ι} {order : List ι} (distinct : order.Nodup)
    (behind : ∀ j ∈ order, j ≠ i ∧ (pool.sinks j).slot < slotAt interval instant) :
    ∃ target final, Transition.run Pool.step pool (roundAt instant order) = some target ∧
      Shares path maxBackups target final ∧ target.sinks i = pool.sinks i ∧
      final.age i = shared.age i + order.length := by
  induction order generalizing now pool shared with
  | nil => exact ⟨pool, shared, rfl, shares, rfl, rfl⟩
  | cons j order inductionHypothesis =>
      obtain ⟨others, elapsed⟩ := behind j List.mem_cons_self
      have allowed := ofInterval_roundAt maxBackups interval instant (j :: order)
      have first := allowed _ List.mem_cons_self
      have clocked := clocked_roundAt le (j :: order)
      obtain ⟨next, stepped, nextShares⟩ := shares.step first.faultless
      have nextAligned := aligned.step shares clocked first stepped
      have unmoved : ∀ {k}, k ≠ j → next.sinks k = pool.sinks k := by
        intro k different
        obtain ⟨world, _, rfl⟩ := Pool.step_eq_some.mp stepped
        exact Pool.put_sinks_of_ne _ _ different
      have due := (aligned.due_iff j (callAt instant) [0]).mpr elapsed
      have age : (share maxBackups pool (j, .write (callAt instant) [0]) shared).age i =
          shared.age i + 1 := by
        have pushed := @SharedShelf.age_push _ _ _ maxBackups j shared i
        rw [if_neg (Ne.symm others)] at pushed
        rw [← pushed]
        simp only [share, due, if_true, SharedShelf.write]
        split <;> rfl
      obtain ⟨absent, rest⟩ := List.nodup_cons.mp distinct
      have stillBehind : ∀ k ∈ order, k ≠ i ∧ (next.sinks k).slot < slotAt interval instant := by
        intro k member
        have different : k ≠ j := fun same => absent (same ▸ member)
        rw [unmoved different]
        exact behind k (List.mem_cons_of_mem j member)
      obtain ⟨target, final, ran, targetShares, same, aged⟩ :=
        inductionHypothesis nextAligned nextShares (Int.le_refl _) rest stillBehind
      refine ⟨target, final, (run_cons_eq_some Pool.step).mpr ⟨next, stepped, ran⟩, targetShares,
        same.trans (unmoved (Ne.symm others)), ?_⟩
      rw [aged, age, List.length_cons, Nat.add_assoc, Nat.add_comm 1]

/-! ## The result -/

/-- The sinks have each opened the file of the path, which is there. -/
def Opened (path : Text) (maxBackups : Nat) (interval : RotationInterval) (pool : Pool ι) : Prop :=
  ∀ i, ∃ env : OpenEnv, env.Faultless ∧
    openWith path 0 maxBackups interval env pool.disk = (.ok (pool.sinks i), pool.disk)

section

variable {path : Text} {maxBackups : Nat} {interval : RotationInterval} {pool : Pool ι}
  (opened : Opened path maxBackups interval pool)

include opened

omit [DecidableEq ι] [Fintype ι] in
theorem Opened.sinks_eq (i : ι) : pool.disk.links path = some (pool.sinks i).file ∧
    pool.sinks i = sinkOn path (pool.sinks i).file 0 maxBackups interval pool.disk := by
  obtain ⟨env, free, isOpen⟩ := opened i
  have isOpen : openWith path 0 maxBackups interval env pool.disk =
      (.ok (pool.world i).sink, (pool.world i).disk) := isOpen
  obtain ⟨sink, ⟨linked, _⟩ | ⟨created, _⟩⟩ := sink_of_openWith free isOpen
  · rw [intervalStartFor_some] at sink
    exact ⟨linked, sink⟩
  · have grown := congrArg Disk.fresh created
    rw [Disk.fresh_create, Pool.world_disk] at grown
    exact absurd grown (Nat.ne_of_lt (Nat.lt_succ_self _))

omit [DecidableEq ι] [Fintype ι] in
theorem Opened.onPath : OnPath path maxBackups pool := by
  have path_eq : ∀ i, (pool.sinks i).path = path := by
    intro i
    rw [(opened.sinks_eq i).2]
    rfl
  refine ⟨?_, path_eq, ?_⟩
  · intro i
    rw [World.Attached, Pool.world_sink, Pool.world_disk, path_eq i]
    exact (opened.sinks_eq i).1
  · intro i
    rw [(opened.sinks_eq i).2]
    rfl

theorem Opened.aligned {now : Instant}
    (past : ∀ file, pool.disk.links path = some file → (pool.disk.inodes file).modified ≤ now) :
    Aligned path interval now pool (shelved path pool.disk) := by
  have began : ∀ i, (pool.sinks i).intervalStart =
      interval.slotStart (pool.disk.inodes (pool.sinks i).file).modified := by
    intro i
    conv_lhs => rw [(opened.sinks_eq i).2]
    rfl
  constructor
  · intro i
    rw [(opened.sinks_eq i).2]
    rfl
  · intro i
    rw [(opened.sinks_eq i).2]
    rfl
  · intro i
    exact ⟨_, past _ (opened.sinks_eq i).1, began i⟩
  · intro file linked
    refine ⟨past file linked, fun i => ?_⟩
    obtain rfl := Option.some.inj (linked.symm.trans (opened.sinks_eq i).1)
    rw [FileSink.slot, began i, slotAt]
  · exact fun i _ => Nat.zero_le _
  · exact fun _ _ => rfl

/-- With too few backups, a sink that writes first in a new slot is left behind by the
first writes of the others. -/
theorem Opened.exists_stray {now : Instant}
    (past : ∀ file, pool.disk.links path = some file → (pool.disk.inodes file).modified ≤ now)
    (keeps : 0 < maxBackups) (many : maxBackups + 1 < Fintype.card ι)
    (slots : interval.slotStart now ≠ none) (i : ι) :
    ∃ instant order, now ≤ instant ∧
      observed Pool.step (stray path maxBackups) pool (roundAt instant order) ≠ [] := by
  have nonempty : Nonempty ι := ⟨i⟩
  have aligned := opened.aligned past
  have shares : Shares path maxBackups pool (shelved path pool.disk : SharedShelf ι Bytes) :=
    opened.onPath.shares keeps
  obtain ⟨later, le, less⟩ := exists_later_slot slots now
  have behind : ∀ j, (pool.sinks j).slot < slotAt interval later :=
    fun j => Nat.lt_of_le_of_lt (aligned.slot_le j) less
  -- the first write of the sink rotates
  have due := (aligned.due_iff i (callAt later) [0]).mpr (behind i)
  have stepped : pool.step (i, .write (callAt later) [0]) =
      some (pool.put i (writeBytes (callAt later) [0] (pool.world i)).1) := rfl
  have middleShares := (shares.write i (callAt later) rfl [0]).1
  have middleAligned : Aligned path interval later _ _ :=
    aligned.step shares (clocked_roundAt le [i])
      (ofInterval_roundAt maxBackups interval later [i] _ List.mem_cons_self) stepped
  have current : ((pool.put i (writeBytes (callAt later) [0] (pool.world i)).1).sinks i).slot =
      slotAt interval later := by
    rw [Pool.put_sinks_self, (shares.writeBytes_due i rfl (List.cons_ne_nil _ _) due).1, slotAt,
      ← aligned.interval_eq i]
    rfl
  -- the others write, and rotate, too
  have distinct := (Finset.univ.erase i).nodup_toList
  have others : ∀ j ∈ (Finset.univ.erase i).toList, j ≠ i ∧
      ((pool.put i (writeBytes (callAt later) [0] (pool.world i)).1).sinks j).slot <
        slotAt interval later := by
    intro j member
    have different := Finset.ne_of_mem_erase (Finset.mem_toList.mp member)
    rw [Pool.put_sinks_of_ne _ _ different]
    exact ⟨different, behind j⟩
  obtain ⟨target, final, ran, targetShares, same, age⟩ :=
    middleAligned.overtaken middleShares (Int.le_refl _) distinct others
  have orphaned : Orphaned path maxBackups target i := by
    rw [targetShares.orphaned_iff i, age, Finset.length_toList,
      Finset.card_erase_of_mem (Finset.mem_univ i), Finset.card_univ]
    omega
  -- the sink is in the slot of the clock and does not rotate again
  have calm : rotationDue (callAt later) [0] (target.sinks i) = false := by
    rw [same, ← Bool.not_eq_true, middleAligned.due_iff i (callAt later) [0], current]
    exact Nat.lt_irrefl _
  have last : stray path maxBackups target (i, .write (callAt later) [0]) = [[0]] :=
    if_pos ⟨calm, orphaned⟩
  refine ⟨later, i :: ((Finset.univ.erase i).toList ++ [i]), le, ?_⟩
  have split : roundAt later (i :: ((Finset.univ.erase i).toList ++ [i])) =
      (i, .write (callAt later) [0]) :: (roundAt later (Finset.univ.erase i).toList ++
        [(i, .write (callAt later) [0])]) := by
    simp [roundAt]
  have observedLast : observed Pool.step (stray path maxBackups) target
      [(i, .write (callAt later) [0])] = [[0]] := by
    rw [observed_cons rfl, last, observed_nil, List.append_nil]
  rw [split, observed_cons stepped, observed_append ran, observedLast]
  simp

/-- Processes that share a path and an interval, and have no size limit, write no record to
a file without a name exactly when there are enough backups.  Under one clock that does
not go backwards, with calls that come one after another and do not fail, the file of a
sink keeps a name until the sink rotates if there is a backup for each of the others, and
with fewer backups some order of the writes leaves a sink behind.  Without backups the
file always keeps its name, though what one sink writes may cover a record of another. -/
theorem strays_nothing_iff [Nonempty ι] {now : Instant}
    (past : ∀ file, pool.disk.links path = some file → (pool.disk.inodes file).modified ≤ now) :
    (∀ turns, Clocked now turns →
      (∀ turn ∈ turns, turn.2.OfInterval maxBackups interval) →
      observed Pool.step (stray path maxBackups) pool turns = []) ↔
        Enough ι maxBackups interval now := by
  constructor
  · intro nothing
    by_contra tooFew
    obtain ⟨keeps, many, slots⟩ : maxBackups ≠ 0 ∧ ¬ Fintype.card ι ≤ maxBackups + 1 ∧
        interval.slotStart now ≠ none := by
      rwa [Enough, not_or, not_or] at tooFew
    obtain ⟨i⟩ := ‹Nonempty ι›
    obtain ⟨later, order, le, lost⟩ := opened.exists_stray past (Nat.pos_of_ne_zero keeps)
      (Nat.not_le.mp many) slots i
    exact lost (nothing _ (clocked_roundAt le order)
      (ofInterval_roundAt maxBackups interval later order))
  · intro enough turns clocked allowed
    rcases Nat.eq_zero_or_pos maxBackups with rfl | keeps
    · exact opened.onPath.stray_eq_nil fun turn member => (allowed turn member).faultless
    · exact (opened.aligned past).run (opened.onPath.shares keeps) enough clocked allowed

end

/-- Two processes that rotate hourly. -/
def twoProcesses : Pool Bool where
  sinks _ := sinkOn "a".toList 0 0 1 .hourly (Disk.empty.create "a".toList 0)
  disk := Disk.empty.create "a".toList 0

/-- One backup is enough for two processes. -/
theorem strays_nothing_twoProcesses :
    observed Pool.step (stray "a".toList 1) twoProcesses
      (roundAt 3600000000000 [false, true, false, true]) = [] := by
  have opened : Opened "a".toList 1 .hourly twoProcesses :=
    fun _ => ⟨⟨true, true, true, true, 0, 0⟩, ⟨rfl, rfl, rfl, rfl⟩, rfl⟩
  have past : ∀ file, twoProcesses.disk.links "a".toList = some file →
      (twoProcesses.disk.inodes file).modified ≤ (0 : Instant) := by
    intro file linked
    obtain rfl : 0 = file := Option.some.inj linked
    exact Int.le_refl _
  refine (strays_nothing_iff opened past).mpr (.inr (.inl (by decide))) _ ?_ ?_
  · exact clocked_roundAt (by decide) _
  · exact ofInterval_roundAt 1 .hourly _ _

end XosLog.Rotation
