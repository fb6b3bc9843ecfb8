import Mathlib.Data.Set.Basic
import XosLog.FileSystem.Disk

/-!
# Calls within a set of paths

A program that names only paths of one set and writes only through one handle leaves
every other file alone, and it cannot tell apart two disks that look alike within its
set.  Inodes may have different names on the two.
-/

namespace FileSystem.Disk

universe u v

variable {P : Type u} {β : Type v}

/-! ## What lies outside is left alone -/

/-- From one disk and handle to another one: only files of the set, the handle's file
and new files have been touched, and the handle comes from these. -/
structure Within (family : Set P) (before : Disk P β) (old : Nat) (after : Disk P β)
    (new : Nat) : Prop where
  links : ∀ {path}, path ∉ family → after.links path = before.links path
  inodes : ∀ {path ino}, path ∉ family → before.links path = some ino → ino ≠ old →
    after.inodes ino = before.inodes ino
  inside : ∀ {path ino}, path ∈ family → after.links path = some ino →
    before.fresh ≤ ino ∨ ∃ other ∈ family, before.links other = some ino
  handle : new = old ∨ before.fresh ≤ new ∨ ∃ other ∈ family, before.links other = some new
  fresh : before.fresh ≤ after.fresh
  bound : old < before.fresh → new < after.fresh

variable {family : Set P} {first middle last : Disk P β} {old new newer : Nat}

/-- The paths of the set do not come to lead to a file in use that none of them led to. -/
theorem Within.links_ne_of_mem (within : Within family first old last new) {path : P} {ino : Nat}
    (member : path ∈ family) (foreign : ∀ other ∈ family, first.links other ≠ some ino)
    (used : ino < first.fresh) : last.links path ≠ some ino := by
  intro linked
  rcases within.inside member linked with created | ⟨other, inner, earlier⟩
  · exact Nat.not_lt.mpr created used
  · exact foreign other inner earlier

/-- A path outside the set does not come to lead to the handle's file. -/
theorem Within.links_ne_of_notMem (within : Within family first old last new) {path : P}
    (outside : path ∉ family) (foreign : first.links path ≠ some old) :
    last.links path ≠ some new := by
  rw [within.links outside]
  intro linked
  rcases within.handle with same | created | ⟨inner, member, earlier⟩
  · exact foreign (same ▸ linked)
  · exact Nat.not_lt.mpr created (first.linked_lt linked)
  · exact outside (first.one_name linked earlier ▸ member)

theorem Within.refl (disk : Disk P β) (old : Nat) : Within family disk old disk old where
  links _ := rfl
  inodes _ _ _ := rfl
  inside member linked := Or.inr ⟨_, member, linked⟩
  handle := Or.inl rfl
  fresh := Nat.le_refl _
  bound := id

theorem Within.trans (early : Within family first old middle new)
    (late : Within family middle new last newer) : Within family first old last newer where
  links outside := (late.links outside).trans (early.links outside)
  inodes {path ino} outside linked other := by
    have distinct : ino ≠ new := by
      rintro rfl
      rcases early.handle with same | created | ⟨inner, member, within⟩
      · exact other same
      · exact Nat.not_lt.mpr created (first.linked_lt linked)
      · exact outside (first.one_name linked within ▸ member)
    exact (late.inodes outside ((early.links outside).trans linked) distinct).trans
      (early.inodes outside linked other)
  inside member linked := by
    rcases late.inside member linked with created | ⟨other, otherMember, otherLinked⟩
    · exact Or.inl (Nat.le_trans early.fresh created)
    · exact early.inside otherMember otherLinked
  handle := by
    rcases late.handle with rfl | created | ⟨other, member, linked⟩
    · exact early.handle
    · exact Or.inr (Or.inl (Nat.le_trans early.fresh created))
    · exact Or.inr (early.inside member linked)
  fresh := Nat.le_trans early.fresh late.fresh
  bound less := late.bound (early.bound less)

/-- Writing through the handle. -/
theorem within_append (disk : Disk P β) (handle : Nat) (bytes : List β) (now : Int) :
    Within family disk handle (disk.append handle bytes now) handle where
  links _ := by rw [links_append]
  inodes _ _ other := by
    unfold append
    split
    · rfl
    · exact Function.update_of_ne other _ _
  inside member linked := Or.inr ⟨_, member, by rwa [links_append] at linked⟩
  handle := Or.inl rfl
  fresh := by rw [fresh_append]
  bound := by
    rw [fresh_append]
    exact id

/-- From one disk to another one the files of the set are as they were. -/
structure Untouched (family : Set P) (before after : Disk P β) : Prop where
  links : ∀ path ∈ family, after.links path = before.links path
  inodes : ∀ path ∈ family, ∀ ino, before.links path = some ino →
    after.inodes ino = before.inodes ino

theorem Untouched.refl (family : Set P) (disk : Disk P β) : Untouched family disk disk where
  links _ _ := rfl
  inodes _ _ _ _ := rfl

theorem Untouched.trans (early : Untouched family first middle)
    (late : Untouched family middle last) : Untouched family first last where
  links path member := (late.links path member).trans (early.links path member)
  inodes path member ino linked :=
    (late.inodes path member ino ((early.links path member).trans linked)).trans
      (early.inodes path member ino linked)

theorem Untouched.read {path : P} (untouched : Untouched family first last)
    (member : path ∈ family) : last.read path = first.read path := by
  rw [Disk.read, Disk.read, untouched.links path member]
  cases linked : first.links path with
  | none => rfl
  | some ino =>
      exact congrArg some (congrArg Inode.content (untouched.inodes path member ino linked))

/-- The calls of others leave the files alone that neither their paths nor their handle
lead to. -/
theorem Within.untouched {others : Set P} (within : Within others first old last new)
    (outside : ∀ path ∈ family, path ∉ others)
    (foreign : ∀ path ∈ family, first.links path ≠ some old) : Untouched family first last where
  links path member := within.links (outside path member)
  inodes path member _ linked :=
    within.inodes (outside path member) linked
      fun same => foreign path member (same ▸ linked)

variable [DecidableEq P] {path source target : P}

theorem within_tryRemove (disk : Disk P β) (handle : Nat) (succeeds : Bool)
    (member : path ∈ family) : Within family disk handle (disk.tryRemove succeeds path) handle where
  links {other} outside := by
    rw [links_tryRemove, if_neg]
    rintro ⟨_, rfl⟩
    exact outside member
  inodes _ _ _ := by rw [inodes_tryRemove]
  inside {other ino} otherMember linked := by
    rw [links_tryRemove] at linked
    split at linked
    · contradiction
    · exact Or.inr ⟨other, otherMember, linked⟩
  handle := Or.inl rfl
  fresh := by rw [fresh_tryRemove]
  bound := by
    rw [fresh_tryRemove]
    exact id

theorem within_tryRename (disk : Disk P β) (handle : Nat) (succeeds : Bool)
    (sourceMember : source ∈ family) (targetMember : target ∈ family) :
    Within family disk handle (disk.tryRename succeeds source target) handle where
  links {other} outside := by
    have notTarget : other ≠ target := fun same => outside (same ▸ targetMember)
    have notSource : other ≠ source := fun same => outside (same ▸ sourceMember)
    rw [links_tryRename, if_neg notTarget, if_neg notSource, ite_self]
  inodes _ _ _ := by rw [inodes_tryRename]
  inside {other ino} otherMember linked := by
    rw [links_tryRename] at linked
    right
    split_ifs at linked
    · exact ⟨source, sourceMember, linked⟩
    · exact ⟨other, otherMember, linked⟩
    · exact ⟨other, otherMember, linked⟩
  handle := Or.inl rfl
  fresh := by rw [fresh_tryRename]
  bound := by
    rw [fresh_tryRename]
    exact id

theorem within_rename {disk next : Disk P β} (handle : Nat) {succeeds : Bool}
    (sourceMember : source ∈ family) (targetMember : target ∈ family)
    (renamed : disk.rename succeeds source target = some next) :
    Within family disk handle next handle := by
  have same := within_tryRename disk handle succeeds sourceMember targetMember
  rwa [tryRename, renamed, Option.getD_some] at same

theorem within_create (disk : Disk P β) (handle : Nat) (member : path ∈ family) (now : Int) :
    Within family disk handle (disk.create path now) disk.fresh where
  links {other} outside := if_neg fun (same : other = path) => outside (same ▸ member)
  inodes {other ino} _ linked _ := by
    rw [inodes_create]
    exact Function.update_of_ne (Nat.ne_of_lt (disk.linked_lt linked)) _ _
  inside {other ino} otherMember linked := by
    change (if other = path then some disk.fresh else disk.links other) = some ino at linked
    split at linked
    · exact Or.inl (Nat.le_of_eq (Option.some.inj linked))
    · exact Or.inr ⟨other, otherMember, linked⟩
  handle := Or.inr (Or.inl (Nat.le_refl _))
  fresh := Nat.le_succ _
  bound _ := Nat.lt_succ_self _

theorem within_openAppend {disk next : Disk P β} (old : Nat) {succeeds : Bool} {now : Int}
    {file : Nat} (member : path ∈ family)
    (opened : disk.openAppend succeeds now path = some (file, next)) :
    Within family disk old next file := by
  unfold openAppend at opened
  split at opened
  · cases linked : disk.links path with
    | none =>
        simp only [linked, Option.some.injEq, Prod.mk.injEq] at opened
        obtain ⟨rfl, rfl⟩ := opened
        exact within_create disk old member now
    | some found =>
        simp only [linked, Option.some.injEq, Prod.mk.injEq] at opened
        obtain ⟨rfl, rfl⟩ := opened
        have same := @Within.refl _ _ family disk old
        exact { same with
          handle := Or.inr (Or.inr ⟨path, member, linked⟩)
          bound := fun _ => disk.linked_lt linked }
  · contradiction

theorem within_openTruncate {disk next : Disk P β} (old : Nat) {succeeds : Bool} {now : Int}
    {file : Nat} (member : path ∈ family)
    (opened : disk.openTruncate succeeds now path = some (file, next)) :
    Within family disk old next file := by
  unfold openTruncate at opened
  split at opened
  · cases linked : disk.links path with
    | none =>
        simp only [linked, Option.some.injEq, Prod.mk.injEq] at opened
        obtain ⟨rfl, rfl⟩ := opened
        exact within_create disk old member now
    | some found =>
        simp only [linked, Option.some.injEq, Prod.mk.injEq] at opened
        obtain ⟨rfl, rfl⟩ := opened
        constructor
        · exact fun _ => rfl
        · intro other ino outside otherLinked _
          apply Function.update_of_ne
          rintro rfl
          exact outside (disk.one_name otherLinked linked ▸ member)
        · exact fun otherMember otherLinked => Or.inr ⟨_, otherMember, otherLinked⟩
        · exact Or.inr (Or.inr ⟨path, member, linked⟩)
        · exact Nat.le_refl _
        · exact fun _ => disk.linked_lt linked
  · contradiction

/-! ## What looks alike stays alike -/

omit [DecidableEq P] in
/-- The files of the set have the same data on both disks, and the handles are open on
the same one of them, if on any. -/
structure Alike (family : Set P) (first second : Disk P β) (left right : Nat) : Prop where
  files : ∀ path ∈ family,
    (first.links path).map first.inodes = (second.links path).map second.inodes
  opened : ∀ path ∈ family, first.links path = some left ↔ second.links path = some right

section

variable {family : Set P} {first second : Disk P β} {left right : Nat}
  (alike : Alike family first second left right)

include alike

omit [DecidableEq P] in
theorem Alike.read (member : path ∈ family) : first.read path = second.read path := by
  have files := congrArg (Option.map Inode.content) (alike.files path member)
  rwa [Option.map_map, Option.map_map] at files

omit [DecidableEq P] in
theorem Alike.links_eq_none_iff (member : path ∈ family) :
    first.links path = none ↔ second.links path = none := by
  have files := congrArg Option.isNone (alike.files path member)
  rw [Option.isNone_map, Option.isNone_map] at files
  rw [← Option.isNone_iff_eq_none, ← Option.isNone_iff_eq_none, files]

omit [DecidableEq P] in
/-- What leaves the files of the set alone keeps the likeness. -/
theorem Alike.frame {next : Disk P β} (untouched : Untouched family first next) :
    Alike family next second left right where
  files path member := by
    rw [untouched.links path member, ← alike.files path member]
    cases linked : first.links path with
    | none => rfl
    | some ino => exact congrArg some (untouched.inodes path member ino linked)
  opened path member := by
    rw [untouched.links path member]
    exact alike.opened path member

omit [DecidableEq P] in
theorem Alike.append (bytes : List β) (now : Int) :
    Alike family (first.append left bytes now) (second.append right bytes now) left right where
  files path member := by
    have files := alike.files path member
    have opened := alike.opened path member
    unfold Disk.append
    split
    · exact files
    · change (first.links path).map _ = (second.links path).map _
      cases firstLinked : first.links path with
      | none =>
          rw [(alike.links_eq_none_iff member).mp firstLinked]
          rfl
      | some ino =>
          cases secondLinked : second.links path with
          | none =>
              rw [(alike.links_eq_none_iff member).mpr secondLinked] at firstLinked
              contradiction
          | some other =>
              rw [firstLinked, secondLinked] at files opened
              have same : first.inodes ino = second.inodes other := Option.some.inj files
              simp only [Option.some.injEq] at opened
              by_cases own : ino = left
              · obtain rfl := own
                obtain rfl := opened.mp rfl
                simp [same]
              · have others : other ≠ right := fun equal => own (opened.mpr equal)
                simp [own, others, same]
  opened path member := by
    rw [links_append, links_append]
    exact alike.opened path member

theorem Alike.tryRemove (succeeds : Bool) (path : P) :
    Alike family (first.tryRemove succeeds path) (second.tryRemove succeeds path) left right where
  files other otherMember := by
    rw [links_tryRemove, links_tryRemove, inodes_tryRemove, inodes_tryRemove]
    split
    · rfl
    · exact alike.files other otherMember
  opened other otherMember := by
    rw [links_tryRemove, links_tryRemove]
    split
    · simp
    · exact alike.opened other otherMember

theorem Alike.tryRename (succeeds : Bool) (sourceMember : source ∈ family) (target : P) :
    Alike family (first.tryRename succeeds source target) (second.tryRename succeeds source target)
      left right where
  files other member := by
    rw [links_tryRename, links_tryRename, inodes_tryRename, inodes_tryRename]
    simp only [ne_eq, alike.links_eq_none_iff sourceMember]
    split_ifs
    · exact alike.files source sourceMember
    · rfl
    · exact alike.files other member
    · exact alike.files other member
  opened other member := by
    rw [links_tryRename, links_tryRename]
    simp only [ne_eq, alike.links_eq_none_iff sourceMember]
    split_ifs
    · exact alike.opened source sourceMember
    · simp
    · exact alike.opened other member
    · exact alike.opened other member

/-- A rename succeeds on both disks or on neither. -/
theorem Alike.rename (succeeds : Bool) (sourceMember : source ∈ family) (target : P) :
    (first.rename succeeds source target = none ∧ second.rename succeeds source target = none) ∨
      ∃ firstNext secondNext, first.rename succeeds source target = some firstNext ∧
        second.rename succeeds source target = some secondNext ∧
        Alike family firstNext secondNext left right := by
  have renamed := alike.tryRename succeeds sourceMember target
  unfold Disk.tryRename at renamed
  have missing := alike.links_eq_none_iff sourceMember
  unfold Disk.rename at renamed ⊢
  by_cases effective : succeeds = true ∧ first.links source ≠ none
  · have second : succeeds = true ∧ second.links source ≠ none :=
      ⟨effective.1, fun absent => effective.2 (missing.mpr absent)⟩
    rw [if_pos effective, if_pos second] at renamed ⊢
    exact Or.inr ⟨_, _, rfl, rfl, renamed⟩
  · have second : ¬ (succeeds = true ∧ second.links source ≠ none) :=
      fun moved => effective ⟨moved.1, fun absent => moved.2 (missing.mp absent)⟩
    rw [if_neg effective, if_neg second]
    exact Or.inl ⟨rfl, rfl⟩

/-- A new file looks the same on both disks. -/
theorem Alike.create (path : P) (now : Int) :
    Alike family (first.create path now) (second.create path now) first.fresh second.fresh where
  files other member := by
    have files := alike.files other member
    by_cases own : other = path
    · simp [Disk.create, own]
    · have firstLinks : (first.create path now).links other = first.links other := if_neg own
      have secondLinks : (second.create path now).links other = second.links other := if_neg own
      rw [firstLinks, secondLinks, inodes_create, inodes_create]
      have old : ∀ (disk : Disk P β), (disk.links other).map (Function.update disk.inodes disk.fresh
          { content := [], modified := now }) = (disk.links other).map disk.inodes := by
        intro disk
        cases linked : disk.links other with
        | none => rfl
        | some ino =>
            exact congrArg some
              (Function.update_of_ne (Nat.ne_of_lt (disk.linked_lt linked)) _ _)
      rw [old, old, files]
  opened other _ := by
    have isNew : ∀ (disk : Disk P β),
        (disk.create path now).links other = some disk.fresh ↔ other = path := by
      intro disk
      change (if other = path then some disk.fresh else disk.links other) = some disk.fresh ↔ _
      split
      · exact iff_of_true rfl ‹other = path›
      · exact iff_of_false (fun linked => Nat.lt_irrefl _ (disk.linked_lt linked)) ‹¬ other = path›
    rw [isNew, isNew]

omit [DecidableEq P] in
/-- The file at a path of the set is the same one on both disks. -/
theorem Alike.attach {ino other : Nat} (firstLinked : first.links path = some ino)
    (secondLinked : second.links path = some other) : Alike family first second ino other where
  files := alike.files
  opened place _ := by
    have firstOwn : first.links place = some ino ↔ place = path :=
      ⟨fun linked => first.one_name linked firstLinked, fun same => same ▸ firstLinked⟩
    have secondOwn : second.links place = some other ↔ place = path :=
      ⟨fun linked => second.one_name linked secondLinked, fun same => same ▸ secondLinked⟩
    rw [firstOwn, secondOwn]

/-- Opening succeeds on both disks or on neither, with the same data in the file. -/
theorem Alike.openAppend (succeeds : Bool) (now : Int) (member : path ∈ family) :
    (first.openAppend succeeds now path = none ∧ second.openAppend succeeds now path = none) ∨
      ∃ ino other firstNext secondNext,
        first.openAppend succeeds now path = some (ino, firstNext) ∧
        second.openAppend succeeds now path = some (other, secondNext) ∧
        firstNext.inodes ino = secondNext.inodes other ∧
        Alike family firstNext secondNext ino other := by
  unfold Disk.openAppend
  cases succeeds with
  | false => exact Or.inl ⟨rfl, rfl⟩
  | true =>
      right
      rw [if_pos rfl, if_pos rfl]
      cases firstLinked : first.links path with
      | none =>
          rw [(alike.links_eq_none_iff member).mp firstLinked]
          exact ⟨_, _, _, _, rfl, rfl, by simp, alike.create path now⟩
      | some ino =>
          cases secondLinked : second.links path with
          | none =>
              rw [(alike.links_eq_none_iff member).mpr secondLinked] at firstLinked
              contradiction
          | some other =>
              have files := alike.files path member
              rw [firstLinked, secondLinked] at files
              exact ⟨_, _, _, _, rfl, rfl, Option.some.inj files,
                alike.attach firstLinked secondLinked⟩

theorem Alike.openTruncate (succeeds : Bool) (now : Int) (member : path ∈ family) :
    (first.openTruncate succeeds now path = none ∧
      second.openTruncate succeeds now path = none) ∨
      ∃ ino other firstNext secondNext,
        first.openTruncate succeeds now path = some (ino, firstNext) ∧
        second.openTruncate succeeds now path = some (other, secondNext) ∧
        Alike family firstNext secondNext ino other := by
  unfold Disk.openTruncate
  cases succeeds with
  | false => exact Or.inl ⟨rfl, rfl⟩
  | true =>
      right
      rw [if_pos rfl, if_pos rfl]
      cases firstLinked : first.links path with
      | none =>
          rw [(alike.links_eq_none_iff member).mp firstLinked]
          exact ⟨_, _, _, _, rfl, rfl, alike.create path now⟩
      | some ino =>
          cases secondLinked : second.links path with
          | none =>
              rw [(alike.links_eq_none_iff member).mpr secondLinked] at firstLinked
              contradiction
          | some other =>
              refine ⟨_, _, _, _, rfl, rfl, ?_⟩
              have attached := alike.attach firstLinked secondLinked
              have emptied : ∀ {disk : Disk P β} {file : Nat} {place : P},
                  (disk.links place).map (disk.update file ⟨[], now⟩).inodes =
                    if disk.links place = some file then some ⟨[], now⟩
                    else (disk.links place).map disk.inodes := by
                intro disk file place
                rw [inodes_update]
                cases disk.links place with
                | none => rfl
                | some found =>
                    by_cases same : found = file
                    · simp [same]
                    · simp [same]
              refine ⟨?_, attached.opened⟩
              intro place placeMember
              change (first.links place).map _ = (second.links place).map _
              rw [emptied, emptied]
              simp only [attached.opened place placeMember]
              split
              · rfl
              · exact alike.files place placeMember

end

end FileSystem.Disk
