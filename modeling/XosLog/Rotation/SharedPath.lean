import XosLog.Rotation.Journal
import XosLog.Rotation.Pool
import XosLog.SharedShelf
import XosLog.Transition.Observe

/-!
# Several sinks on one path

Sinks with the same path rotate each other's files.  A sink that does not rotate keeps
its open file while the others shift it from slot to slot and at last remove it: what
the sink writes then goes to a file without a name, and the write still succeeds.
While no call fails, the files are a shelf with the sinks as its writers.  All this is
for sinks that keep backups.  Without backups a rotation empties the file where it is, the
sinks never lose it, and what they write may cover each other's records.
-/

namespace XosLog.Rotation

open FileSystem Transition

universe u

/-! ## A rotation by any of the sinks -/

section

variable (env : WriteEnv) {world : World} (free : env.verdicts = .faultless)
  (present : world.disk.links world.sink.path ≠ none)

include free present

/-- With backups, a rotation needs only that there is an active file. -/
theorem rotate_present (keeps : 0 < world.sink.maxBackups) :
    rotate env world = ({
      sink := restart world.sink env world.disk.fresh,
      disk := (shifted world.sink env.verdicts world.disk).create world.sink.path env.reopened },
      .ok ()) := by
  have flushed : env.verdicts.flush = true := by rw [free]; rfl
  have reopened : env.verdicts.reopen = true := by rw [free]; rfl
  have moves : Moves world.sink env.verdicts world.disk 0 := ⟨by rw [free]; rfl, present⟩
  rw [rotate_of_keeps env world keeps flushed, if_pos moves, if_pos reopened]

/-- The files move up, and the new one is in slot zero. -/
theorem links_rotate_present (keeps : 0 < world.sink.maxBackups) (k : Nat) :
    (rotate env world).1.disk.links (slotPath world.sink.path k) =
      NumberedShelf.push world.sink.maxBackups world.disk.fresh
        (fun k => world.disk.links (slotPath world.sink.path k)) k := by
  have flushed : env.verdicts.flush = true := by rw [free]; rfl
  have reopened : env.verdicts.reopen = true := by rw [free]; rfl
  have moves : ∀ k, Moves world.sink env.verdicts world.disk k ↔
      world.disk.links (slotPath world.sink.path k) ≠ none := by
    intro k
    rw [Moves, Disk.Moves, free]
    exact and_iff_right rfl
  rw [links_rotate env world keeps flushed]
  cases k with
  | zero => rw [if_pos ⟨rfl, (moves 0).mpr present, reopened⟩, NumberedShelf.push_zero]
  | succ k =>
      rw [if_neg fun new => Nat.succ_ne_zero k new.1]
      by_cases below : k < world.sink.maxBackups
      · rw [NumberedShelf.push_succ_of_lt _ _ _ below,
          links_shifted_succ world.sink env.verdicts world.disk below]
        simp only [moves]
        by_cases used : world.disk.links (slotPath world.sink.path k) ≠ none
        · rw [if_pos used]
        · rw [if_neg used, not_not.mp used]
          split_ifs with moved removed
          · rfl
          · rfl
          · by_contra found
            rcases Nat.lt_or_eq_of_le (Nat.succ_le_of_lt below) with inside | last
            · exact moved ⟨inside, found⟩
            · exact removed ⟨by rw [free]; rfl, last⟩
      · have beyond : world.sink.maxBackups < k + 1 := Nat.lt_succ_of_le (Nat.not_lt.mp below)
        rw [NumberedShelf.push_of_limit_lt _ _ _ beyond,
          links_shifted_beyond world.sink env.verdicts world.disk beyond]

/-- So do their contents. -/
theorem read_rotate_present (keeps : 0 < world.sink.maxBackups) (k : Nat) :
    (rotate env world).1.disk.read (slotPath world.sink.path k) =
      NumberedShelf.push world.sink.maxBackups []
        (fun k => world.disk.read (slotPath world.sink.path k)) k := by
  have old : ∀ slot, ((world.disk.links (slotPath world.sink.path slot)).map fun ino =>
      ((rotate env world).1.disk.inodes ino).content) =
        world.disk.read (slotPath world.sink.path slot) := by
    intro slot
    rw [Disk.read]
    cases linked : world.disk.links (slotPath world.sink.path slot) with
    | none => rfl
    | some ino =>
        exact congrArg some (content_rotate env world keeps (world.disk.linked_lt linked))
  rw [Disk.read, links_rotate_present env free present keeps]
  cases k with
  | zero =>
      rw [NumberedShelf.push_zero, NumberedShelf.push_zero, Option.map_some,
        rotate_present env free present keeps]
      simp
  | succ k =>
      by_cases below : k < world.sink.maxBackups
      · rw [NumberedShelf.push_succ_of_lt _ _ _ below, NumberedShelf.push_succ_of_lt _ _ _ below]
        exact old k
      · have beyond : world.sink.maxBackups < k + 1 := Nat.lt_succ_of_le (Nat.not_lt.mp below)
        rw [NumberedShelf.push_of_limit_lt _ _ _ beyond,
          NumberedShelf.push_of_limit_lt _ _ _ beyond]
        exact old (k + 1)

end

/-- The sink that opening a file that is there makes. -/
def sinkOn (path : Text) (file maxSize maxBackups : Nat) (interval : RotationInterval)
    (disk : Volume) : FileSink where
  path := path
  file := file
  maxSize := maxSize
  maxBackups := maxBackups
  size := (disk.inodes file).content.length
  interval := interval
  intervalStart := interval.slotStart (disk.inodes file).modified

theorem openWith_linked {env : OpenEnv} (faultless : env.Faultless) {path : Text} {disk : Volume}
    {file : Nat} (linked : disk.links path = some file) (maxSize maxBackups : Nat)
    (interval : RotationInterval) :
    openWith path maxSize maxBackups interval env disk =
      (.ok (sinkOn path file maxSize maxBackups interval disk), disk) := by
  rw [sinkOn, ← intervalStartFor_some _ interval env.checked]
  exact @openWith_attached env faultless ⟨⟨path, file, 0, 0, 0, .never, none⟩, disk⟩ linked
    maxSize maxBackups interval

/-! ## The files as a shelf of several writers -/

variable {ι : Type u} [DecidableEq ι]

/-- The files of a path as a shelf: a sink holds the file in the slot of its age, and
when there is no such slot its file has no name. -/
structure Shares (path : Text) (maxBackups : Nat) (pool : Pool ι)
    (shared : SharedShelf ι Bytes) : Prop where
  path_eq : ∀ i, (pool.sinks i).path = path
  maxBackups_eq : ∀ i, (pool.sinks i).maxBackups = maxBackups
  read : ∀ k, pool.disk.read (slotPath path k) = (shared.shelf k).map List.flatten
  active : pool.disk.links path ≠ none
  held : ∀ i, shared.age i ≤ maxBackups →
    pool.disk.links (slotPath path (shared.age i)) = some (pool.sinks i).file
  gone : ∀ i, maxBackups < shared.age i →
    ∀ k, pool.disk.links (slotPath path k) ≠ some (pool.sinks i).file
  old : ∀ i, (pool.sinks i).file < pool.disk.fresh
  keeps : 0 < maxBackups

/-- What an event of a sink means for the shelf. -/
def share (maxBackups : Nat) (pool : Pool ι) :
    ι × Event → SharedShelf ι Bytes → SharedShelf ι Bytes
  | (i, .write env bytes), shared =>
      (if rotationDue env bytes (pool.sinks i) then shared.push maxBackups i
        else shared).write maxBackups i bytes
  | (i, .reopen ..), shared => shared.attach i

section

variable {path : Text} {maxBackups : Nat} {pool : Pool ι} {shared : SharedShelf ι Bytes}
  (shares : Shares path maxBackups pool shared) (i : ι) (env : WriteEnv)
  (free : env.verdicts = .faultless)

include shares

omit [DecidableEq ι] in
/-- The slot of a file is that of its age. -/
theorem Shares.slot_eq {k : Nat} :
    pool.disk.links (slotPath path k) = some (pool.sinks i).file ↔
      shared.age i ≤ maxBackups ∧ k = shared.age i := by
  constructor
  · intro linked
    have held : shared.age i ≤ maxBackups := by
      by_contra gone
      exact shares.gone i (Nat.not_le.mp gone) k linked
    exact ⟨held, slotPath_injective path (pool.disk.one_name linked (shares.held i held))⟩
  · rintro ⟨held, rfl⟩
    exact shares.held i held

omit [DecidableEq ι] in
theorem Shares.present : (pool.world i).disk.links (pool.world i).sink.path ≠ none := by
  rw [Pool.world_sink, shares.path_eq i]
  exact shares.active

include free

/-- A rotation by one of the sinks pushes an empty file, which the sink takes. -/
theorem Shares.rotate :
    Shares path maxBackups (pool.put i (Rotation.rotate env (pool.world i)).1)
        (shared.push maxBackups i) ∧
      (Rotation.rotate env (pool.world i)).2 = .ok () := by
  have samePath := shares.path_eq i
  have sameLimit := shares.maxBackups_eq i
  have present := shares.present i
  have keepsOwn : 0 < (pool.world i).sink.maxBackups := by
    rw [Pool.world_sink, sameLimit]
    exact shares.keeps
  have outcome := rotate_present env free present keepsOwn
  have links := links_rotate_present env free present keepsOwn
  have read := read_rotate_present env free present keepsOwn
  simp only [Pool.world_sink, Pool.world_disk, samePath, sameLimit] at links read outcome
  have ages := @SharedShelf.age_push _ _ _ maxBackups i shared
  have ownFile : ((pool.put i (Rotation.rotate env (pool.world i)).1).sinks i).file =
      pool.disk.fresh := by
    rw [Pool.put_sinks_self, outcome]
    rfl
  have otherFile : ∀ {j}, j ≠ i →
      ((pool.put i (Rotation.rotate env (pool.world i)).1).sinks j).file = (pool.sinks j).file :=
    fun others => congrArg FileSink.file (Pool.put_sinks_of_ne pool _ others)
  refine ⟨?_, by rw [outcome]⟩
  constructor
  · exact fun j => (Pool.put_keeps FileSink.path (rotate_path env _) j).trans (shares.path_eq j)
  · exact fun j => (Pool.put_keeps FileSink.maxBackups (rotate_maxBackups env _) j).trans
      (shares.maxBackups_eq j)
  · intro k
    rw [Pool.put_disk, read k]
    cases k with
    | zero => rfl
    | succ k =>
        simp only [SharedShelf.push, NumberedShelf.push, shares.read]
        split <;> rfl
  · rw [Pool.put_disk, ← slotPath_zero path, links 0, NumberedShelf.push_zero]
    exact Option.some_ne_none _
  · intro j inside
    rw [Pool.put_disk, links]
    by_cases own : j = i
    · subst own
      rw [ages, if_pos rfl, NumberedShelf.push_zero, ownFile]
    · rw [ages, if_neg own] at inside ⊢
      rw [NumberedShelf.push_succ_of_lt _ _ _ inside, otherFile own]
      exact shares.held j (Nat.le_of_succ_le inside)
  · intro j above k linked
    by_cases own : j = i
    · rw [ages, if_pos own] at above
      exact Nat.not_lt_zero _ above
    · rw [ages, if_neg own] at above
      rw [Pool.put_disk, links, otherFile own] at linked
      cases k with
      | zero =>
          have fresh := Option.some.inj linked
          exact Nat.ne_of_lt (shares.old j) fresh.symm
      | succ k =>
          by_cases below : k < maxBackups
          · rw [NumberedShelf.push_succ_of_lt _ _ _ below, shares.slot_eq j] at linked
            omega
          · rw [NumberedShelf.push_of_limit_lt _ _ _ (by omega), shares.slot_eq j] at linked
            omega
  · intro j
    have grown : (pool.put i (Rotation.rotate env (pool.world i)).1).disk.fresh =
        pool.disk.fresh + 1 := by
      rw [Pool.put_disk, outcome]
      simp
    rw [grown]
    by_cases own : j = i
    · rw [own, ownFile]
      exact Nat.lt_succ_self _
    · rw [otherFile own]
      exact Nat.lt_succ_of_lt (shares.old j)
  · exact shares.keeps

/-- Appending adds to the file that the sink holds, and is missed when that has no name. -/
theorem Shares.append (bytes : Bytes) :
    Shares path maxBackups (pool.put i (appendBytes env bytes (pool.world i)).1)
        (shared.write maxBackups i bytes) ∧
      (appendBytes env bytes (pool.world i)).2 = .ok () := by
  have whole : env.verdicts.write = none := by rw [free]; rfl
  have outcome : appendBytes env bytes (pool.world i) =
      (⟨{ pool.sinks i with size := (pool.sinks i).size + bytes.length },
        pool.disk.append (pool.sinks i).file bytes env.written⟩, .ok ()) := by
    simp only [appendBytes, whole]
    rfl
  rw [outcome]
  refine ⟨?_, rfl⟩
  have sameFile := @Pool.put_keeps _ _ _ FileSink.file pool i
    ⟨{ pool.sinks i with size := (pool.sinks i).size + bytes.length },
      pool.disk.append (pool.sinks i).file bytes env.written⟩ rfl
  have sameAge : (shared.write maxBackups i bytes).age = shared.age := by
    unfold SharedShelf.write
    split <;> rfl
  constructor
  · exact fun j => (Pool.put_keeps FileSink.path rfl j).trans (shares.path_eq j)
  · exact fun j => (Pool.put_keeps FileSink.maxBackups rfl j).trans (shares.maxBackups_eq j)
  · intro k
    simp only [Pool.put_disk, Disk.read_append, shares.slot_eq i, shares.read k,
      SharedShelf.write]
    by_cases held : shared.age i ≤ maxBackups
    · rw [if_pos held]
      by_cases own : k = shared.age i
      · subst own
        rw [if_pos ⟨held, rfl⟩]
        simp only [NumberedShelf.renewAt, Function.update_self]
        cases shared.shelf (shared.age i) with
        | none => rfl
        | some item => simp
      · rw [if_neg fun slot => own slot.2]
        simp only [NumberedShelf.renewAt, Function.update_of_ne own]
    · rw [if_neg held, if_neg fun slot => held slot.1]
  · rw [Pool.put_disk, Disk.links_append]
    exact shares.active
  · intro j inside
    rw [sameAge] at inside ⊢
    rw [Pool.put_disk, Disk.links_append, sameFile j]
    exact shares.held j inside
  · intro j above k
    rw [sameAge] at above
    rw [Pool.put_disk, Disk.links_append, sameFile j]
    exact shares.gone j above k
  · intro j
    rw [Pool.put_disk, Disk.fresh_append, sameFile j]
    exact shares.old j
  · exact shares.keeps

/-- A write never fails. -/
theorem Shares.write (bytes : Bytes) :
    Shares path maxBackups (pool.put i (writeBytes env bytes (pool.world i)).1)
        (share maxBackups pool (i, .write env bytes) shared) ∧
      (writeBytes env bytes (pool.world i)).2 = .ok () := by
  rcases writeBytes_cases env bytes (pool.world i) with
    ⟨calm, same⟩ | ⟨due, ⟨error, failed, _⟩ | ⟨_, same⟩⟩
  · rw [same]
    rw [Pool.world_sink] at calm
    simp only [share, calm, Bool.false_eq_true, if_false]
    exact shares.append i env free bytes
  · rw [(shares.rotate i env free).2] at failed
    contradiction
  · rw [same]
    rw [Pool.world_sink] at due
    simp only [share, due, if_true]
    have appended := (shares.rotate i env free).1.append i env free bytes
    rw [Pool.world_put_self] at appended
    simpa [Pool.put] using appended

end

section

variable {path : Text} {maxBackups : Nat} {pool : Pool ι} {shared : SharedShelf ι Bytes}
  (shares : Shares path maxBackups pool shared)

include shares

theorem Shares.step_reopen (i : ι) {opening : OpenEnv} (faultless : opening.Faultless)
    {file : Nat} (linked : pool.disk.links path = some file) (maxSize : Nat)
    (interval : RotationInterval) :
    pool.step (i, .reopen maxSize maxBackups interval opening) =
      some (pool.put i ⟨sinkOn path file maxSize maxBackups interval pool.disk, pool.disk⟩) := by
  have opened := openWith_linked faultless linked maxSize maxBackups interval
  simp only [Pool.step, Rotation.step, Pool.world_sink, Pool.world_disk, shares.path_eq i, opened]
  rfl

/-- A sink that is opened again takes the active file. -/
theorem Shares.reopen (i : ι) {file : Nat} (linked : pool.disk.links path = some file)
    (maxSize : Nat) (interval : RotationInterval) :
    Shares path maxBackups
      (pool.put i ⟨sinkOn path file maxSize maxBackups interval pool.disk, pool.disk⟩)
      (shared.attach i) := by
  constructor
  · exact fun j => (Pool.put_keeps FileSink.path (shares.path_eq i).symm j).trans
      (shares.path_eq j)
  · exact fun j => (Pool.put_keeps FileSink.maxBackups (shares.maxBackups_eq i).symm j).trans
      (shares.maxBackups_eq j)
  · exact shares.read
  · exact shares.active
  · intro j inside
    by_cases own : j = i
    · subst own
      simp only [SharedShelf.attach, Function.update_self, Pool.put_sinks_self]
      exact linked
    · simp only [SharedShelf.attach, Function.update_of_ne own] at inside ⊢
      rw [Pool.put_sinks_of_ne pool _ own]
      exact shares.held j inside
  · intro j above
    by_cases own : j = i
    · subst own
      simp only [SharedShelf.attach, Function.update_self] at above
      exact absurd above (Nat.not_lt_zero _)
    · simp only [SharedShelf.attach, Function.update_of_ne own] at above
      rw [Pool.put_sinks_of_ne pool _ own]
      exact shares.gone j above
  · intro j
    by_cases own : j = i
    · subst own
      rw [Pool.put_sinks_self]
      exact pool.disk.linked_lt linked
    · rw [Pool.put_sinks_of_ne pool _ own]
      exact shares.old j
  · exact shares.keeps

/-- One event without a fault. -/
theorem Shares.step {turn : ι × Event} (faultless : turn.2.Faultless maxBackups) :
    ∃ next, pool.step turn = some next ∧
      Shares path maxBackups next (share maxBackups pool turn shared) := by
  obtain ⟨i, event⟩ := turn
  cases event with
  | write env bytes => exact ⟨_, rfl, (shares.write i env faultless bytes).1⟩
  | reopen maxSize newMaxBackups interval opening =>
      obtain ⟨rfl, free⟩ := faultless
      obtain ⟨file, linked⟩ := Option.ne_none_iff_exists'.mp shares.active
      exact ⟨_, shares.step_reopen i free linked maxSize interval,
        shares.reopen i linked maxSize interval⟩

end

/-! ## Where the records go -/

/-- The file of a sink is in none of the slots. -/
def Orphaned (path : Text) (maxBackups : Nat) (pool : Pool ι) (i : ι) : Prop :=
  ∀ k ≤ maxBackups, pool.disk.links (slotPath path k) ≠ some (pool.sinks i).file

instance (path : Text) (maxBackups : Nat) (pool : Pool ι) (i : ι) :
    Decidable (Orphaned path maxBackups pool i) :=
  inferInstanceAs (Decidable (∀ k ≤ maxBackups, _))

/-- The records written, without a rotation, to a file that has no name. -/
def stray (path : Text) (maxBackups : Nat) : View (Pool ι) (ι × Event) Bytes
  | pool, (i, .write env bytes) =>
      if rotationDue env bytes (pool.sinks i) = false ∧ Orphaned path maxBackups pool i then
        [bytes]
      else []
  | _, (_, .reopen ..) => []

/-- The content of the file that a rotation gives up. -/
def displaced (path : Text) (maxBackups : Nat) : View (Pool ι) (ι × Event) Bytes
  | pool, (i, .write env bytes) =>
      if rotationDue env bytes (pool.sinks i) then
        [(pool.disk.read (slotPath path maxBackups)).getD []]
      else []
  | _, (_, .reopen ..) => []

section

variable {path : Text} {maxBackups : Nat} {pool : Pool ι} {shared : SharedShelf ι Bytes}
  (shares : Shares path maxBackups pool shared)

include shares

omit [DecidableEq ι] in
theorem Shares.orphaned_iff (i : ι) :
    Orphaned path maxBackups pool i ↔ maxBackups < shared.age i := by
  constructor
  · intro orphaned
    by_contra inside
    have held := Nat.not_lt.mp inside
    exact orphaned _ held (shares.held i held)
  · exact fun gone k _ => shares.gone i gone k

theorem Shares.missed_share (turn : ι × Event) :
    (share maxBackups pool turn shared).missed =
      shared.missed ++ stray path maxBackups pool turn := by
  obtain ⟨i, event⟩ := turn
  cases event with
  | reopen maxSize newMaxBackups interval opening => simp [share, stray, SharedShelf.attach]
  | write env bytes =>
      have orphaned := shares.orphaned_iff i
      simp only [share, stray, orphaned]
      cases due : rotationDue env bytes (pool.sinks i) with
      | false =>
          rw [if_neg Bool.false_ne_true, SharedShelf.write]
          by_cases inside : shared.age i ≤ maxBackups
          · rw [if_pos inside, if_neg fun gone => Nat.not_lt.mpr inside gone.2, List.append_nil]
          · rw [if_neg inside, if_pos ⟨rfl, Nat.not_le.mp inside⟩]
      | true =>
          have young : (shared.push maxBackups i).age i ≤ maxBackups := by
            rw [SharedShelf.age_push i, if_pos rfl]
            exact Nat.zero_le _
          rw [if_pos rfl, SharedShelf.write, if_pos young]
          simp [SharedShelf.push]

theorem Shares.dropped_share (turn : ι × Event) :
    (share maxBackups pool turn shared).dropped.flatten =
      shared.dropped.flatten ++ (displaced path maxBackups pool turn).flatten := by
  obtain ⟨i, event⟩ := turn
  cases event with
  | reopen maxSize newMaxBackups interval opening => simp [share, displaced, SharedShelf.attach]
  | write env bytes =>
      have unwritten : ∀ other : SharedShelf ι Bytes,
          (other.write maxBackups i bytes).dropped = other.dropped := by
        intro other
        unfold SharedShelf.write
        split <;> rfl
      simp only [share, displaced, unwritten]
      split
      · simp only [SharedShelf.push, List.flatten_append, shares.read]
        cases shared.shelf maxBackups <;> simp
      · simp

end

/-- What happens to the entries of the past in one event. -/
theorem accounts_share {maxBackups : Nat} {past : List Bytes} {shared : SharedShelf ι Bytes}
    (accounts : shared.Accounts maxBackups past) (pool : Pool ι) (turn : ι × Event) :
    (share maxBackups pool turn shared).Accounts maxBackups (past ++ records [turn.2]) := by
  obtain ⟨i, event⟩ := turn
  cases event with
  | write env bytes =>
      simp only [share]
      split
      · exact (accounts.push i).write i bytes
      · exact accounts.write i bytes
  | reopen maxSize newMaxBackups interval opening =>
      simp only [records, List.append_nil]
      exact accounts.attach i

/-- A run without faults. -/
theorem Shares.run {path : Text} {maxBackups : Nat} {past : List Bytes} {pool : Pool ι}
    {shared : SharedShelf ι Bytes} (shares : Shares path maxBackups pool shared)
    (accounts : shared.Accounts maxBackups past) {turns : List (ι × Event)}
    (faultless : ∀ turn ∈ turns, turn.2.Faultless maxBackups) :
    ∃ target final, Transition.run Pool.step pool turns = some target ∧
      Shares path maxBackups target final ∧
      final.Accounts maxBackups (past ++ records (turns.map Prod.snd)) ∧
      final.missed = shared.missed ++ observed Pool.step (stray path maxBackups) pool turns ∧
      final.dropped.flatten = shared.dropped.flatten ++
        (observed Pool.step (displaced path maxBackups) pool turns).flatten := by
  induction turns generalizing past pool shared with
  | nil =>
      refine ⟨pool, shared, rfl, shares, ?_, ?_, ?_⟩
      · simpa [records] using accounts
      · simp
      · simp
  | cons turn turns inductionHypothesis =>
      obtain ⟨next, stepped, nextShares⟩ := shares.step (faultless turn List.mem_cons_self)
      obtain ⟨target, final, ran, targetShares, targetAccounts, missed, dropped⟩ :=
        inductionHypothesis nextShares (accounts_share accounts pool turn)
          fun later member => faultless later (List.mem_cons_of_mem turn member)
      rw [List.append_assoc, ← records_cons, ← List.map_cons] at targetAccounts
      refine ⟨target, final, (run_cons_eq_some Pool.step).mpr ⟨next, stepped, ran⟩, targetShares,
        targetAccounts, ?_, ?_⟩
      · rw [missed, shares.missed_share, observed_cons stepped, List.append_assoc]
      · rw [dropped, shares.dropped_share, observed_cons stepped, List.flatten_append,
          List.append_assoc]

/-! ## The result -/

/-- Every sink is on the path and holds the active file. -/
structure OnPath (path : Text) (maxBackups : Nat) (pool : Pool ι) : Prop where
  attached : ∀ i, (pool.world i).Attached
  path_eq : ∀ i, (pool.sinks i).path = path
  maxBackups_eq : ∀ i, (pool.sinks i).maxBackups = maxBackups

/-- The shelf of the files that are there, each as one entry. -/
def shelved (path : Text) (disk : Volume) : SharedShelf ι Bytes where
  shelf k := (disk.read (slotPath path k)).map fun content => [content]
  age _ := 0
  dropped := []
  missed := []

/-- The contents of the files that are there. -/
def contentsAt (path : Text) (maxBackups : Nat) (disk : Volume) : List Bytes :=
  (List.range (maxBackups + 1)).filterMap fun k => disk.read (slotPath path k)

omit [DecidableEq ι] in
theorem entries_shelved (path : Text) (maxBackups : Nat) (disk : Volume) :
    NumberedShelf.entries maxBackups (shelved path disk : SharedShelf ι Bytes).shelf =
      contentsAt path maxBackups disk := by
  rw [contentsAt, List.filterMap_eq_flatMap_toList, NumberedShelf.entries]
  congr 1
  funext k
  simp only [shelved]
  cases disk.read (slotPath path k) <;> rfl

section

variable {path : Text} {maxBackups : Nat} {pool : Pool ι} (onPath : OnPath path maxBackups pool)

include onPath

omit [DecidableEq ι] in
theorem OnPath.linked (i : ι) : pool.disk.links path = some (pool.sinks i).file := by
  have attached := onPath.attached i
  rwa [World.Attached, Pool.world_sink, Pool.world_disk, onPath.path_eq i] at attached

omit [DecidableEq ι] in
theorem OnPath.shares [Nonempty ι] (keeps : 0 < maxBackups) :
    Shares path maxBackups pool (shelved path pool.disk : SharedShelf ι Bytes) := by
  constructor
  · exact onPath.path_eq
  · exact onPath.maxBackups_eq
  · intro k
    simp only [shelved, Option.map_map]
    cases pool.disk.read (slotPath path k) <;> simp
  · obtain ⟨i⟩ := ‹Nonempty ι›
    rw [onPath.linked i]
    exact Option.some_ne_none _
  · exact fun i _ => onPath.linked i
  · exact fun i above => absurd above (Nat.not_lt_zero _)
  · exact fun i => pool.disk.linked_lt (onPath.linked i)
  · exact keeps

omit [DecidableEq ι] in
theorem OnPath.accounts [Nonempty ι] :
    (shelved path pool.disk : SharedShelf ι Bytes).Accounts maxBackups
      (contentsAt path maxBackups pool.disk) := by
  have whole := @entries_shelved ι path maxBackups pool.disk
  have present : (shelved path pool.disk : SharedShelf ι Bytes).shelf 0 ≠ none := by
    obtain ⟨i⟩ := ‹Nonempty ι›
    simp [shelved, Disk.read, onPath.linked i]
  constructor
  · rw [whole]
    simp [shelved]
  · intro k inside item found
    have place : k ∈ List.range (maxBackups + 1) := List.mem_range.mpr (Nat.lt_succ_of_le inside)
    have part := List.sublist_flatten_of_mem (List.mem_map_of_mem (f := fun k =>
      ((shelved path pool.disk : SharedShelf ι Bytes).shelf k).getD []) place)
    rw [found, Option.getD_some, ← List.flatMap_def] at part
    rwa [← whole]
  · exact fun _ _ => present
  · exact present

end

/-- Sinks that share a path and keep backups, each as many as the others, account for their
records together, as long as their calls come one after another.  After every run without
faults the files are whole records, in the order of the writes; every file of the
beginning and every record is in one of them, or was in one that a rotation gave up, or
was written by a sink whose file no longer had a name; and every write succeeds, also of
such a sink. -/
theorem shared_files [Nonempty ι] {path : Text} {maxBackups : Nat} {pool : Pool ι}
    (onPath : OnPath path maxBackups pool) (keeps : 0 < maxBackups) {turns : List (ι × Event)}
    (faultless : ∀ turn ∈ turns, turn.2.Faultless maxBackups) :
    ∃ target shelf dropped, run Pool.step pool turns = some target ∧
      (∀ k, target.disk.read (slotPath path k) = (shelf k).map List.flatten) ∧
      (∀ k ≤ maxBackups, ∀ item, shelf k = some item →
        item.Sublist (contentsAt path maxBackups pool.disk ++ records (turns.map Prod.snd))) ∧
      (NumberedShelf.entries maxBackups shelf ++ dropped ++
        observed Pool.step (stray path maxBackups) pool turns).Perm
          (contentsAt path maxBackups pool.disk ++ records (turns.map Prod.snd)) ∧
      dropped.flatten = (observed Pool.step (displaced path maxBackups) pool turns).flatten ∧
      ∀ i env bytes, env.verdicts = .faultless →
        (writeBytes env bytes (target.world i)).2 = .ok () := by
  obtain ⟨target, final, ran, shares, accounts, missed, dropped⟩ :=
    (onPath.shares keeps).run onPath.accounts faultless
  refine ⟨target, final.shelf, final.dropped, ran, shares.read, accounts.ordered, ?_, ?_, ?_⟩
  · have split := accounts.split
    rwa [missed] at split
  · exact dropped
  · exact fun i env bytes free => (shares.write i env free bytes).2

/-- Two sinks with one backup, of which the second one rotates at two bytes. -/
def twoSinks : Pool Bool where
  sinks second := ⟨"a".toList, 0, second.toNat, 1, 0, .never, none⟩
  disk := Disk.empty.create "a".toList 0

/-- The second sink rotates twice between two writes of the first one. -/
def overtaking : List (Bool × Event) :=
  [(false, .write ⟨0, 0, 0, 0, .faultless⟩ [1]), (true, .write ⟨0, 0, 0, 0, .faultless⟩ [2, 3]),
    (true, .write ⟨0, 0, 0, 0, .faultless⟩ [4]), (false, .write ⟨0, 0, 0, 0, .faultless⟩ [5])]

theorem shared_files_overtaken :
    observed Pool.step (stray "a".toList 1) twoSinks overtaking = [[5]] ∧
    ∃ target, run Pool.step twoSinks overtaking = some target ∧
      ∃ (shelf : NumberedShelf (List Bytes)) (dropped : List Bytes),
        (NumberedShelf.entries 1 shelf ++ dropped ++ [[5]]).Perm
          (contentsAt "a".toList 1 twoSinks.disk ++ [[1], [2, 3], [4], [5]]) ∧
      ∀ k, target.disk.read (slotPath "a".toList k) = (shelf k).map List.flatten := by
  have onPath : OnPath "a".toList 1 twoSinks := by
    refine ⟨fun i => ?_, fun _ => rfl, fun _ => rfl⟩
    rfl
  have faultless : ∀ turn ∈ overtaking, turn.2.Faultless 1 := by
    simp [overtaking, Event.Faultless]
  have missed : observed Pool.step (stray "a".toList 1) twoSinks overtaking = [[5]] := by
    decide +kernel
  obtain ⟨target, shelf, dropped, ran, read, _, split, _⟩ :=
    shared_files onPath Nat.one_pos faultless
  rw [missed] at split
  exact ⟨missed, target, ran, shelf, dropped, split, read⟩

/-! ## Without backups -/

/-- Without backups an event leaves every sink at the active file. -/
theorem OnPath.step {path : Text} {pool next : Pool ι} (onPath : OnPath path 0 pool)
    {turn : ι × Event} (faultless : turn.2.Faultless 0) (stepped : pool.step turn = some next) :
    OnPath path 0 next := by
  obtain ⟨i, event⟩ := turn
  obtain ⟨world, happened, rfl⟩ := Pool.step_eq_some.mp stepped
  have stays : world.disk.links = pool.disk.links ∧ world.sink.file = (pool.sinks i).file ∧
      world.sink.path = (pool.sinks i).path ∧ world.sink.maxBackups = 0 := by
    cases event with
    | write env bytes =>
        obtain rfl := Option.some.inj happened
        refine ⟨?_, ?_, writeBytes_path _ _ _,
          (writeBytes_maxBackups _ _ _).trans (onPath.maxBackups_eq i)⟩ <;>
        · cases due : rotationDue env bytes (pool.sinks i) with
          | true =>
              rw [writeBytes_truncates env bytes (onPath.attached i) faultless due
                (onPath.maxBackups_eq i)]
              simp [restart, Disk.update]
          | false =>
              rw [writeBytes_calm env bytes faultless due]
              simp
    | reopen maxSize maxBackups interval env =>
        obtain ⟨rfl, free⟩ := faultless
        have opened := openWith_attached free (onPath.attached i) maxSize 0 interval
        simp only [Rotation.step, opened, Option.some.injEq] at happened
        subst happened
        exact ⟨rfl, rfl, rfl, rfl⟩
  obtain ⟨links, file, samePath, keepsNone⟩ := stays
  refine ⟨fun j => ?_, fun j => ?_, fun j => ?_⟩
  · rw [World.Attached, Pool.world_sink, Pool.world_disk, Pool.put_disk, links,
      Pool.put_keeps FileSink.path samePath, Pool.put_keeps FileSink.file file]
    exact onPath.attached j
  · exact (Pool.put_keeps FileSink.path samePath j).trans (onPath.path_eq j)
  · exact Pool.forall_put (fun _ sink => sink.maxBackups = 0) keepsNone
      (fun j _ => onPath.maxBackups_eq j) j

/-- Without backups no file loses its name. -/
theorem OnPath.stray_eq_nil {path : Text} {pool : Pool ι} (onPath : OnPath path 0 pool)
    {turns : List (ι × Event)} (faultless : ∀ turn ∈ turns, turn.2.Faultless 0) :
    observed Pool.step (stray path 0) pool turns = [] := by
  induction turns generalizing pool with
  | nil => rfl
  | cons turn turns inductionHypothesis =>
      have nothing : stray path 0 pool turn = [] := by
        obtain ⟨i, event⟩ := turn
        cases event with
        | reopen maxSize maxBackups interval env => rfl
        | write env bytes =>
            exact if_neg fun orphaned => orphaned.2 0 (Nat.le_refl 0) (onPath.linked i)
      rw [observed]
      cases stepped : pool.step turn with
      | none => rfl
      | some next =>
          dsimp only
          rw [nothing, List.nil_append]
          exact inductionHypothesis
            (onPath.step (faultless turn List.mem_cons_self) stepped)
            fun later member => faultless later (List.mem_cons_of_mem turn member)

end XosLog.Rotation
