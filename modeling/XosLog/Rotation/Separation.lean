import XosLog.FileSystem.Separation
import XosLog.Rotation.Pool
import XosLog.Rfc3164.Reader
import XosLog.Transition.Observe

/-!
# Sinks on paths of their own

Sinks whose files have different paths do not interfere, whatever fails and whatever
the order of their calls: each of them finds what it would find alone on the disk.
-/

namespace XosLog.Rotation

open FileSystem FileSystem.Disk Transition

universe u

/-- The paths of the active file and of the backups up to a number. -/
def family (path : Text) (limit : Nat) : Set Text :=
  {place | ∃ k ≤ limit, place = slotPath path k}

theorem mem_family {path : Text} {limit k : Nat} (inside : k ≤ limit) :
    slotPath path k ∈ family path limit :=
  ⟨k, inside, rfl⟩

theorem path_mem_family (path : Text) (limit : Nat) : path ∈ family path limit :=
  mem_family (k := 0) (Nat.zero_le limit)

theorem backupPath_mem_family {path : Text} {limit k : Nat} (positive : 0 < k)
    (inside : k ≤ limit) : backupPath path k ∈ family path limit := by
  rw [← slotPath_of_pos path positive]
  exact mem_family inside

/-! ## Which paths a sink touches -/

section

variable {limit : Nat}

theorem within_shiftLoop (path : Text) (verdicts : Verdicts) {count : Nat} (fits : count < limit)
    (disk : Volume) (file : Nat) :
    Within (family path limit) disk file (shiftLoop path verdicts count disk) file := by
  induction count generalizing disk with
  | zero => exact Within.refl disk file
  | succ count inductionHypothesis =>
      have renamed := within_tryRename disk file (verdicts.rename (count + 1))
        (@backupPath_mem_family path _ _ (Nat.succ_pos count) (Nat.le_of_lt fits))
        (@backupPath_mem_family path _ _ (Nat.succ_pos (count + 1)) fits)
      exact renamed.trans (inductionHypothesis (Nat.lt_of_succ_lt fits) _)

theorem within_shiftBackups (sink : FileSink) (verdicts : Verdicts) (disk : Volume) (file : Nat)
    (keeps : 0 < sink.maxBackups) (fits : sink.maxBackups ≤ limit) :
    Within (family sink.path limit) disk file (shiftBackups sink verdicts disk).1 file := by
  have removed := within_tryRemove disk file verdicts.remove
    (@backupPath_mem_family sink.path _ _ keeps fits)
  have fewer : sink.maxBackups - 1 < limit := by omega
  have shifted := removed.trans (within_shiftLoop sink.path verdicts fewer _ file)
  unfold shiftBackups
  dsimp only
  split
  · rename_i renamed
    exact shifted.trans (within_rename file (path_mem_family sink.path limit)
      (backupPath_mem_family Nat.one_pos (Nat.le_trans keeps fits)) renamed)
  · exact shifted

variable (env : WriteEnv) (bytes : Bytes) (world : World)

theorem within_appendBytes :
    Within (family world.sink.path limit) world.disk world.sink.file
      (appendBytes env bytes world).1.disk (appendBytes env bytes world).1.sink.file := by
  unfold appendBytes
  split <;> exact within_append world.disk world.sink.file _ _

theorem within_rotate (fits : world.sink.maxBackups ≤ limit) :
    Within (family world.sink.path limit) world.disk world.sink.file
      (rotate env world).1.disk (rotate env world).1.sink.file := by
  have member := path_mem_family world.sink.path limit
  unfold rotate
  dsimp only
  split
  · split
    · rename_i keeps
      have shifted := within_shiftBackups world.sink env.verdicts world.disk world.sink.file keeps
        fits
      split
      · rename_i disk error outcome
        rwa [outcome] at shifted
      · rename_i disk outcome
        rw [outcome] at shifted
        split
        · exact shifted
        · rename_i file next opened
          exact shifted.trans (within_openAppend _ member opened)
    · split
      · exact Within.refl _ _
      · rename_i file next opened
        exact within_openTruncate _ member opened
  · exact Within.refl _ _

theorem within_writeBytes (fits : world.sink.maxBackups ≤ limit) :
    Within (family world.sink.path limit) world.disk world.sink.file
      (writeBytes env bytes world).1.disk (writeBytes env bytes world).1.sink.file := by
  have rotated := within_rotate env world fits
  rcases writeBytes_cases env bytes world with ⟨_, same⟩ | ⟨_, ⟨_, _, same⟩ | ⟨_, same⟩⟩
  · rw [same]
    exact within_appendBytes env bytes world
  · rw [same]
    exact rotated
  · rw [same]
    have appended := @within_appendBytes limit env bytes (rotate env world).1
    rw [rotate_path] at appended
    exact rotated.trans appended

end

/-- The event keeps at most so many backups. -/
def Event.Fits (limit : Nat) : Event → Prop
  | .write _ _ => True
  | .reopen _ maxBackups _ _ => maxBackups ≤ limit

/-- A sink touches the files of its own path only, and keeps its path. -/
theorem within_step {limit : Nat} {world next : World} {event : Event}
    (fits : world.sink.maxBackups ≤ limit) (eventFits : event.Fits limit)
    (stepped : step world event = some next) :
    Within (family world.sink.path limit) world.disk world.sink.file next.disk next.sink.file ∧
      next.sink.path = world.sink.path ∧ next.sink.maxBackups ≤ limit := by
  cases event with
  | write env bytes =>
      obtain rfl := Option.some.inj stepped
      refine ⟨within_writeBytes env bytes world fits, writeBytes_path env bytes world, ?_⟩
      rwa [writeBytes_maxBackups]
  | reopen maxSize maxBackups interval env =>
      simp only [step, openWith] at stepped
      split at stepped
      · rename_i sink disk outcome
        split at outcome
        · split at outcome
          · exact absurd (congrArg Prod.fst outcome) (by simp)
          · rename_i file next opened
            obtain ⟨isSink, rfl⟩ := Prod.mk.inj outcome
            obtain rfl := Except.ok.inj isSink
            obtain rfl := Option.some.inj stepped
            exact ⟨within_openAppend _ (path_mem_family _ _) opened, rfl, eventFits⟩
        · exact absurd (congrArg Prod.fst outcome) (by simp)
      · contradiction

/-- A sink keeps its archive while others leave its files alone. -/
theorem Preserved.untouched {path : Text} {maxBackups : Nat} {past : List Bytes} {world : World}
    {after : Volume} (preserved : Preserved path maxBackups past world)
    (untouched : Untouched (family path maxBackups) world.disk after) :
    Preserved path maxBackups past { world with disk := after } where
  attached := by
    have isOpen := preserved.attached
    rw [World.Attached, preserved.path_eq] at isOpen ⊢
    rw [untouched.links path (path_mem_family path maxBackups), isOpen]
  path_eq := preserved.path_eq
  maxBackups_eq := preserved.maxBackups_eq
  retains := by
    have same : slotContents path maxBackups after = slotContents path maxBackups world.disk := by
      apply List.map_congr_left
      intro k member
      rw [untouched.read (mem_family (Nat.lt_succ_iff.mp (List.mem_range.mp member)))]
    have retains := preserved.retains
    rw [World.slots, preserved.path_eq, preserved.maxBackups_eq] at retains ⊢
    rwa [same]

/-! ## What a sink can see -/

/-- The same sink on two disks that look alike on the paths of the sink. -/
structure Mirrors (limit : Nat) (first second : World) : Prop where
  sink : first.sink = { second.sink with file := first.sink.file }
  alike : Alike (family second.sink.path limit) first.disk second.disk first.sink.file
    second.sink.file

section

variable {limit : Nat}

theorem alike_shiftLoop (path : Text) (verdicts : Verdicts) {count : Nat} (fits : count < limit)
    {first second : Volume} {left right : Nat}
    (alike : Alike (family path limit) first second left right) :
    Alike (family path limit) (shiftLoop path verdicts count first)
      (shiftLoop path verdicts count second) left right := by
  induction count generalizing first second with
  | zero => exact alike
  | succ count inductionHypothesis =>
      have renamed := alike.tryRename (verdicts.rename (count + 1))
        (backupPath_mem_family (Nat.succ_pos count) (Nat.le_of_lt fits))
        (backupPath path (count + 2))
      exact inductionHypothesis (Nat.lt_of_succ_lt fits) renamed

theorem alike_shiftBackups (sink : FileSink) (file : Nat) (verdicts : Verdicts)
    (keeps : 0 < sink.maxBackups) (fits : sink.maxBackups ≤ limit) {first second : Volume}
    {left right : Nat} (alike : Alike (family sink.path limit) first second left right) :
    Alike (family sink.path limit) (shiftBackups { sink with file } verdicts first).1
        (shiftBackups sink verdicts second).1 left right ∧
      (shiftBackups { sink with file } verdicts first).2 =
        (shiftBackups sink verdicts second).2 := by
  have removed := alike.tryRemove verdicts.remove (backupPath sink.path sink.maxBackups)
  have fewer : sink.maxBackups - 1 < limit := by omega
  have looped := alike_shiftLoop sink.path verdicts fewer removed
  unfold shiftBackups
  dsimp only
  rcases looped.rename (verdicts.rename 0) (path_mem_family sink.path limit)
      (backupPath sink.path 1) with ⟨firstNone, secondNone⟩ |
        ⟨firstNext, secondNext, firstSome, secondSome, renamed⟩
  · rw [firstNone, secondNone]
    exact ⟨looped, rfl⟩
  · rw [firstSome, secondSome]
    exact ⟨renamed, rfl⟩

variable {first second : World} (mirrors : Mirrors limit first second) (env : WriteEnv)

include mirrors

/-- The two worlds as one sink on two disks. -/
theorem Mirrors.eq_on : first = ⟨{ second.sink with file := first.sink.file }, first.disk⟩ := by
  conv_rhs => rw [← mirrors.sink]

theorem Mirrors.appendBytes (bytes : Bytes) :
    Mirrors limit (appendBytes env bytes first).1 (appendBytes env bytes second).1 ∧
      (Rotation.appendBytes env bytes first).2 = (Rotation.appendBytes env bytes second).2 := by
  have alike := mirrors.alike
  rw [mirrors.eq_on]
  generalize first.sink.file = file at alike ⊢
  unfold Rotation.appendBytes
  dsimp only
  cases env.verdicts.write with
  | none => exact ⟨⟨rfl, alike.append bytes env.written⟩, rfl⟩
  | some count => exact ⟨⟨rfl, alike.append (bytes.take count) env.written⟩, rfl⟩

theorem Mirrors.rotate (fits : second.sink.maxBackups ≤ limit) :
    Mirrors limit (rotate env first).1 (rotate env second).1 ∧
      (Rotation.rotate env first).2 = (Rotation.rotate env second).2 := by
  have alike := mirrors.alike
  have member := path_mem_family second.sink.path limit
  rw [mirrors.eq_on]
  generalize first.sink.file = file at alike ⊢
  unfold Rotation.rotate
  dsimp only
  by_cases flushed : env.verdicts.flush = true
  · rw [if_pos flushed, if_pos flushed]
    by_cases keeps : 0 < second.sink.maxBackups
    · rw [if_pos keeps, if_pos keeps]
      obtain ⟨shifted, same⟩ :=
        alike_shiftBackups second.sink file env.verdicts keeps fits alike
      generalize shiftBackups { second.sink with file := file } env.verdicts first.disk =
        firstOutcome at shifted same ⊢
      generalize shiftBackups second.sink env.verdicts second.disk = secondOutcome
        at shifted same ⊢
      obtain ⟨firstDisk, firstResult⟩ := firstOutcome
      obtain ⟨secondDisk, secondResult⟩ := secondOutcome
      obtain rfl : firstResult = secondResult := same
      cases firstResult with
      | error error => exact ⟨⟨rfl, shifted⟩, rfl⟩
      | ok _ =>
          rcases shifted.openAppend env.verdicts.reopen env.reopened member with
            ⟨firstNone, secondNone⟩ | ⟨ino, other, firstNext, secondNext, firstSome, secondSome,
              _, opened⟩
          · dsimp only at firstNone secondNone ⊢
            rw [firstNone, secondNone]
            exact ⟨⟨rfl, shifted⟩, rfl⟩
          · dsimp only at firstSome secondSome ⊢
            rw [firstSome, secondSome]
            exact ⟨⟨rfl, opened⟩, rfl⟩
    · rw [if_neg keeps, if_neg keeps]
      rcases alike.openTruncate env.verdicts.reopen env.reopened member with
        ⟨firstNone, secondNone⟩ | ⟨ino, other, firstNext, secondNext, firstSome, secondSome, opened⟩
      · rw [firstNone, secondNone]
        exact ⟨⟨rfl, alike⟩, rfl⟩
      · rw [firstSome, secondSome]
        exact ⟨⟨rfl, opened⟩, rfl⟩
  · rw [if_neg flushed, if_neg flushed]
    exact ⟨⟨rfl, alike⟩, rfl⟩

/-- A write ends in the same way on both disks. -/
theorem Mirrors.writeBytes (fits : second.sink.maxBackups ≤ limit) (bytes : Bytes) :
    Mirrors limit (writeBytes env bytes first).1 (writeBytes env bytes second).1 ∧
      (Rotation.writeBytes env bytes first).2 = (Rotation.writeBytes env bytes second).2 := by
  have sameDue : rotationDue env bytes first.sink = rotationDue env bytes second.sink := by
    rw [mirrors.sink]
    rfl
  unfold Rotation.writeBytes
  rw [sameDue]
  split
  · obtain ⟨rotated, same⟩ := mirrors.rotate env fits
    generalize Rotation.rotate env first = firstOutcome at rotated same ⊢
    generalize Rotation.rotate env second = secondOutcome at rotated same ⊢
    obtain ⟨firstWorld, firstResult⟩ := firstOutcome
    obtain ⟨secondWorld, secondResult⟩ := secondOutcome
    obtain rfl : firstResult = secondResult := same
    cases firstResult with
    | error error => exact ⟨rotated, rfl⟩
    | ok _ => exact rotated.appendBytes env bytes
  · exact mirrors.appendBytes env bytes

omit env

/-- An event that is possible on one of the disks is possible on the other one. -/
theorem Mirrors.step (fits : second.sink.maxBackups ≤ limit) {event : Event} {next : World}
    (stepped : step first event = some next) :
    ∃ mirror, Rotation.step second event = some mirror ∧ Mirrors limit next mirror := by
  cases event with
  | write env bytes =>
      obtain rfl := Option.some.inj stepped
      exact ⟨_, rfl, (mirrors.writeBytes env fits bytes).1⟩
  | reopen maxSize maxBackups interval env =>
      have alike := mirrors.alike
      have samePath : first.sink.path = second.sink.path := by rw [mirrors.sink]
      simp only [Rotation.step, openWith, samePath] at stepped ⊢
      by_cases made : env.createDir = true
      · rw [if_pos made] at stepped ⊢
        rcases alike.openAppend env.openFile env.opened
            (path_mem_family second.sink.path limit) with
          ⟨firstNone, secondNone⟩ | ⟨ino, other, firstNext, secondNext, firstSome, secondSome,
            sameData, opened⟩
        · simp only [firstNone] at stepped
          contradiction
        · simp only [firstSome, secondSome, Option.some.injEq] at stepped ⊢
          subst stepped
          refine ⟨_, rfl, ?_, opened⟩
          simp only [sameData]
      · rw [if_neg made] at stepped
        contradiction

end

/-! ## Paths -/

/-- The path of a backup names its path and its number. -/
theorem backupPath_inj {first second : Text} {k l : Nat}
    (same : backupPath first k = backupPath second l) : first = second ∧ k = l := by
  have noDot : ∀ n, '.' ∉ Text.decimal n := by
    intro n member
    exact absurd (Rfc3164.isDigit_of_mem_toDigits member) (by decide)
  have shorter : ∀ {tail : Text} {m n : Nat},
      '.' :: Text.decimal m = tail ++ '.' :: Text.decimal n → tail = [] := by
    intro tail m n equal
    cases tail with
    | nil => rfl
    | cons c tail =>
        obtain ⟨_, digits⟩ := List.cons.inj equal
        exact absurd (digits ▸ List.mem_append_right tail List.mem_cons_self) (noDot m)
  have samePath : first = second := by
    rcases List.append_eq_append_iff.mp same with ⟨tail, split, rest⟩ | ⟨tail, split, rest⟩
    · rw [split, shorter rest, List.append_nil]
    · rw [split, shorter rest, List.append_nil]
  refine ⟨samePath, ?_⟩
  subst samePath
  exact decimal_injective (List.cons.inj (List.append_cancel_left same)).2

/-- Two paths, neither of which is the other one or among its backups. -/
structure PathsApart (first : Text) (firstLimit : Nat) (second : Text) (secondLimit : Nat) :
    Prop where
  distinct : first ≠ second
  left : ∀ k, 0 < k → k ≤ secondLimit → first ≠ backupPath second k
  right : ∀ k, 0 < k → k ≤ firstLimit → second ≠ backupPath first k

theorem PathsApart.notMem {first second place : Text} {firstLimit secondLimit : Nat}
    (apart : PathsApart first firstLimit second secondLimit)
    (member : place ∈ family first firstLimit) : place ∉ family second secondLimit := by
  obtain ⟨k, kInside, rfl⟩ := member
  rintro ⟨l, lInside, same⟩
  cases k with
  | zero =>
      cases l with
      | zero => exact apart.distinct same
      | succ l => exact apart.left (l + 1) (Nat.succ_pos l) lInside same
  | succ k =>
      cases l with
      | zero => exact apart.right (k + 1) (Nat.succ_pos k) kInside same.symm
      | succ l => exact apart.distinct (backupPath_inj same).1

/-! ## Sinks apart -/

variable {ι : Type u} [DecidableEq ι]

/-- The events of one of the sinks. -/
def own (i : ι) (turns : List (ι × Event)) : List Event :=
  (turns.filter fun turn => turn.1 = i).map Prod.snd

/-- How the writes of a sink end. -/
def answer : View World Event (Except IoError Unit)
  | world, .write env bytes => [(writeBytes env bytes world).2]
  | _, .reopen .. => []

/-- How the writes of one of the sinks end. -/
def answers (i : ι) : View (Pool ι) (ι × Event) (Except IoError Unit)
  | pool, (j, event) => if j = i then answer (pool.world j) event else []

/-- Each sink has its own paths, its own file, and sees what a sink alone would see. -/
structure Separated (paths : ι → Text) (limits : ι → Nat) (pool : Pool ι) (solo : ι → World) :
    Prop where
  path_eq : ∀ i, (solo i).sink.path = paths i
  fits : ∀ i, (solo i).sink.maxBackups ≤ limits i
  mirrors : ∀ i, Mirrors (limits i) (pool.world i) (solo i)
  foreign : ∀ i j, i ≠ j → ∀ place ∈ family (paths i) (limits i),
    pool.disk.links place ≠ some (pool.sinks j).file
  old : ∀ i, (pool.sinks i).file < pool.disk.fresh

section

variable {paths : ι → Text} {limits : ι → Nat}

theorem Separated.within {pool next : Pool ι} {solo : ι → World}
    (separated : Separated paths limits pool solo) {i : ι} {event : Event}
    (fits : event.Fits (limits i)) (stepped : pool.step (i, event) = some next) :
    Within (family (paths i) (limits i)) pool.disk (pool.sinks i).file next.disk
      (next.sinks i).file := by
  obtain ⟨world, happened, rfl⟩ := Pool.step_eq_some.mp stepped
  have same := (separated.mirrors i).sink
  have samePath : (pool.world i).sink.path = paths i := by
    rw [same]
    exact separated.path_eq i
  have keeps : (pool.world i).sink.maxBackups ≤ limits i := by
    rw [same]
    exact separated.fits i
  obtain ⟨within, _, _⟩ := within_step keeps fits happened
  rw [samePath] at within
  rwa [Pool.put_sinks_self]

variable (apart : ∀ i j, i ≠ j → PathsApart (paths i) (limits i) (paths j) (limits j))

include apart

/-- An event of one of the sinks leaves the files of the others alone. -/
theorem Separated.untouched {pool next : Pool ι} {solo : ι → World}
    (separated : Separated paths limits pool solo) {i j : ι} (others : j ≠ i) {event : Event}
    (fits : event.Fits (limits i)) (stepped : pool.step (i, event) = some next) :
    Untouched (family (paths j) (limits j)) pool.disk next.disk :=
  (separated.within fits stepped).untouched (fun _ member => (apart j i others).notMem member)
    (separated.foreign j i others)

/-- One event of one of the sinks. -/
theorem Separated.step {pool next : Pool ι} {solo : ι → World}
    (separated : Separated paths limits pool solo) {i : ι} {event : Event}
    (fits : event.Fits (limits i)) (stepped : pool.step (i, event) = some next) :
    ∃ mirror, Rotation.step (solo i) event = some mirror ∧
      Separated paths limits next (Function.update solo i mirror) := by
  have within := separated.within fits stepped
  have untouched {j : ι} (others : j ≠ i) := separated.untouched apart others fits stepped
  obtain ⟨world, happened, rfl⟩ := Pool.step_eq_some.mp stepped
  rw [Pool.put_sinks_self, Pool.put_disk] at within
  obtain ⟨mirror, mirrored, mirrors⟩ := (separated.mirrors i).step (separated.fits i) happened
  obtain ⟨_, mirrorPath, mirrorFits⟩ := within_step (separated.fits i) fits mirrored
  have other : ∀ {j}, j ≠ i → (pool.put i world).sinks j = pool.sinks j :=
    fun others => Pool.put_sinks_of_ne _ _ others
  have outside : ∀ {j}, j ≠ i → ∀ place ∈ family (paths j) (limits j),
      place ∉ family (paths i) (limits i) :=
    fun others place member => (apart _ _ others).notMem member
  refine ⟨mirror, mirrored, ?_⟩
  constructor
  · refine (Function.forall_update_iff solo fun j mirror => mirror.sink.path = paths j).mpr ⟨?_, ?_⟩
    · rw [mirrorPath]
      exact separated.path_eq i
    · exact fun j _ => separated.path_eq j
  · refine (Function.forall_update_iff solo fun j mirror =>
      mirror.sink.maxBackups ≤ limits j).mpr ⟨mirrorFits, ?_⟩
    exact fun j _ => separated.fits j
  · intro j
    by_cases same : j = i
    · rw [same, Function.update_self, Pool.world_put_self]
      exact mirrors
    · have before := separated.mirrors j
      rw [Function.update_of_ne same]
      constructor
      · rw [Pool.world_sink, other same]
        exact before.sink
      · have alike := before.alike
        rw [separated.path_eq j] at alike ⊢
        rw [Pool.world_sink, other same]
        exact alike.frame (untouched same)
  · intro a b different place member
    rw [Pool.put_disk]
    by_cases first : a = i
    · -- the own paths lead to files that were there or are new
      subst first
      rw [other (Ne.symm different)]
      exact within.links_ne_of_mem member (separated.foreign a b different) (separated.old b)
    · by_cases second : b = i
      · subst second
        rw [Pool.put_sinks_self]
        exact within.links_ne_of_notMem (outside first place member)
          (separated.foreign a b different place member)
      · rw [within.links (outside first place member), other second]
        exact separated.foreign a b different place member
  · apply Pool.forall_put (fun _ sink => sink.file < (pool.put i world).disk.fresh)
    · exact within.bound (separated.old i)
    · exact fun j _ => Nat.lt_of_lt_of_le (separated.old j) within.fresh

/-- A run, and for each sink the run it would have had alone. -/
theorem Separated.run {pool target : Pool ι} {solo : ι → World}
    (separated : Separated paths limits pool solo) {turns : List (ι × Event)}
    (fits : ∀ turn ∈ turns, turn.2.Fits (limits turn.1))
    (ran : run Pool.step pool turns = some target) :
    ∃ ends : ι → World, Separated paths limits target ends ∧
      ∀ i, Transition.run Rotation.step (solo i) (own i turns) = some (ends i) ∧
        observed Pool.step (answers i) pool turns =
          observed Rotation.step answer (solo i) (own i turns) := by
  induction turns generalizing pool solo with
  | nil =>
      cases ran
      exact ⟨solo, separated, fun i => ⟨rfl, rfl⟩⟩
  | cons turn turns inductionHypothesis =>
      obtain ⟨j, event⟩ := turn
      obtain ⟨next, stepped, ran⟩ := (run_cons_eq_some Pool.step).mp ran
      have eventFits := fits (j, event) List.mem_cons_self
      obtain ⟨mirror, mirrored, nextSeparated⟩ := separated.step apart eventFits stepped
      obtain ⟨ends, endsSeparated, alone⟩ := inductionHypothesis nextSeparated
        (fun later member => fits later (List.mem_cons_of_mem _ member)) ran
      refine ⟨ends, endsSeparated, fun i => ?_⟩
      obtain ⟨ranAlone, sameAnswers⟩ := alone i
      rw [observed_cons stepped, sameAnswers]
      by_cases same : j = i
      · subst same
        have ownEvents : own j ((j, event) :: turns) = event :: own j turns := by simp [own]
        rw [Function.update_self] at ranAlone sameAnswers ⊢
        rw [ownEvents, observed_cons mirrored, run_cons, mirrored]
        refine ⟨ranAlone, ?_⟩
        have sameAnswer : answers j pool (j, event) = answer (solo j) event := by
          rw [answers, if_pos rfl]
          cases event with
          | write env bytes =>
              exact congrArg (· :: [])
                ((separated.mirrors j).writeBytes env (separated.fits j) bytes).2
          | reopen maxSize maxBackups interval env => rfl
        rw [sameAnswer]
      · have ownEvents : own i ((j, event) :: turns) = own i turns := by simp [own, same]
        rw [Function.update_of_ne (Ne.symm same)] at ranAlone sameAnswers ⊢
        rw [ownEvents, answers, if_neg same]
        exact ⟨ranAlone, rfl⟩

omit [DecidableEq ι] in
/-- Sinks that have each opened a path of their own are separated. -/
theorem separated_of_attached {pool : Pool ι} (attached : ∀ i, (pool.world i).Attached)
    (path_eq : ∀ i, (pool.sinks i).path = paths i)
    (keeps : ∀ i, (pool.sinks i).maxBackups ≤ limits i) :
    Separated paths limits pool pool.world := by
  have linked : ∀ j, pool.disk.links (paths j) = some (pool.sinks j).file := by
    intro j
    have isOpen := attached j
    rwa [World.Attached, Pool.world_sink, Pool.world_disk, path_eq j] at isOpen
  constructor
  · exact path_eq
  · exact keeps
  · exact fun j => ⟨rfl, fun _ _ => rfl, fun _ _ => Iff.rfl⟩
  · intro a b different place member shared
    have same := pool.disk.one_name shared (linked b)
    exact (apart a b different).notMem member (same ▸ path_mem_family (paths b) (limits b))
  · exact fun j => pool.disk.linked_lt (linked j)

/-- Sinks on paths of their own do not interfere.  Whatever fails, and in whatever order
the sinks are called, each sink ends with the files, the counts and the slot that it
would have alone on the disk, and each of its writes returns what it would return
there. -/
theorem sinks_separate {pool target : Pool ι} (attached : ∀ i, (pool.world i).Attached)
    (path_eq : ∀ i, (pool.sinks i).path = paths i)
    (keeps : ∀ i, (pool.sinks i).maxBackups ≤ limits i) {turns : List (ι × Event)}
    (fits : ∀ turn ∈ turns, turn.2.Fits (limits turn.1))
    (ran : Transition.run Pool.step pool turns = some target) (i : ι) :
    ∃ solo, Transition.run Rotation.step (pool.world i) (own i turns) = some solo ∧
      target.sinks i = { solo.sink with file := (target.sinks i).file } ∧
      (∀ k ≤ limits i,
        target.disk.read (slotPath (paths i) k) = solo.disk.read (slotPath (paths i) k)) ∧
      observed Pool.step (answers i) pool turns =
        observed Rotation.step answer (pool.world i) (own i turns) := by
  have separated := separated_of_attached apart attached path_eq keeps
  obtain ⟨ends, endsSeparated, alone⟩ := separated.run apart fits ran
  obtain ⟨ranAlone, sameAnswers⟩ := alone i
  have mirrors := endsSeparated.mirrors i
  refine ⟨ends i, ranAlone, mirrors.sink, ?_, sameAnswers⟩
  intro k inside
  have alike := mirrors.alike
  rw [endsSeparated.path_eq i] at alike
  exact alike.read (mem_family inside)

end

/-- Two sinks on different paths, with one backup each and a limit of one byte. -/
def twoPaths : Pool Bool where
  sinks
    | false => ⟨"a".toList, 0, 1, 1, 0, .never, none⟩
    | true => ⟨"b".toList, 1, 1, 1, 0, .never, none⟩
  disk := (Disk.empty.create "a".toList 0).create "b".toList 0

/-- Both sinks rotate, and the second one fails to reopen its file. -/
def crossing : List (Bool × Event) :=
  [(false, .write ⟨0, 0, 0, 0, .faultless⟩ [1]), (true, .write ⟨0, 0, 0, 0, .faultless⟩ [2]),
    (true, .write ⟨0, 0, 0, 0, { Verdicts.faultless with reopen := false }⟩ [3]),
    (false, .write ⟨0, 0, 0, 0, .faultless⟩ [4])]

theorem sinks_separate_twoPaths :
    ∃ target solo, Transition.run Pool.step twoPaths crossing = some target ∧
      Transition.run step (twoPaths.world false) (own false crossing) = some solo ∧
      ∀ k ≤ 1,
        target.disk.read (slotPath "a".toList k) = solo.disk.read (slotPath "a".toList k) := by
  have starts : ∀ (c d : Char) (k : Nat), c ≠ d → [c] ≠ backupPath [d] k :=
    fun c d k other same => other (List.cons.inj same).1
  have apart : ∀ i j, i ≠ j →
      PathsApart (twoPaths.sinks i).path 1 (twoPaths.sinks j).path 1 := by
    intro i j different
    cases i <;> cases j
    · contradiction
    · exact ⟨by decide, fun k _ _ => starts 'a' 'b' k (by decide),
        fun k _ _ => starts 'b' 'a' k (by decide)⟩
    · exact ⟨by decide, fun k _ _ => starts 'b' 'a' k (by decide),
        fun k _ _ => starts 'a' 'b' k (by decide)⟩
    · contradiction
  have attached : ∀ i, (twoPaths.world i).Attached := by
    intro i
    cases i <;> rfl
  have keeps : ∀ i, (twoPaths.sinks i).maxBackups ≤ 1 := by
    intro i
    cases i <;> exact Nat.le_refl 1
  have fits : ∀ turn ∈ crossing, turn.2.Fits 1 := by
    simp [crossing, Event.Fits]
  obtain ⟨target, ran⟩ : ∃ target, Transition.run Pool.step twoPaths crossing = some target :=
    ⟨_, rfl⟩
  obtain ⟨solo, ranAlone, _, reads, _⟩ :=
    sinks_separate apart attached (fun _ => rfl) keeps fits ran false
  exact ⟨target, solo, ran, ranAlone, reads⟩

end XosLog.Rotation
