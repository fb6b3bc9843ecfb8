import Mathlib.Data.List.Infix
import Mathlib.Logic.Function.Basic
import Mathlib.Tactic.Common

/-!
# A small file system

Directory entries link paths to inodes, and an open file is an inode.  An inode
that has lost its name can still be written through a handle.  No file has two
names.  Every call takes the verdict of the environment on whether it succeeds,
and a call that fails changes nothing.
-/

namespace FileSystem

universe u v

/-- The data of a file: its content and the time it was last modified. -/
structure Inode (β : Type v) where
  content : List β
  modified : Int

/-- The links and the inodes of a file system; `fresh` is the next inode. -/
structure Disk (P : Type u) (β : Type v) where
  links : P → Option Nat
  inodes : Nat → Inode β
  fresh : Nat
  linked_lt : ∀ {path ino}, links path = some ino → ino < fresh
  one_name : ∀ {first second ino},
    links first = some ino → links second = some ino → first = second

namespace Disk

variable {P : Type u} {β : Type v}

/-- The disk without files. -/
def empty : Disk P β where
  links _ := none
  inodes _ := { content := [], modified := 0 }
  fresh := 0
  linked_lt linked := absurd linked (Option.some_ne_none _).symm
  one_name linked := absurd linked (Option.some_ne_none _).symm

/-- The content of the file at a path, if there is one. -/
def read (disk : Disk P β) (path : P) : Option (List β) :=
  (disk.links path).map fun ino => (disk.inodes ino).content

/-! ## Open files -/

/-- Replace the data of an inode. -/
def update (ino : Nat) (data : Inode β) (disk : Disk P β) : Disk P β :=
  { disk with inodes := Function.update disk.inodes ino data }

/-- Bytes written at the end of an open file. -/
def append (ino : Nat) (bytes : List β) (now : Int) (disk : Disk P β) : Disk P β :=
  if bytes.isEmpty then disk
  else disk.update ino { content := (disk.inodes ino).content ++ bytes, modified := now }

section

variable (disk : Disk P β) (ino : Nat) (bytes : List β) (now : Int)

@[simp]
theorem links_append : (disk.append ino bytes now).links = disk.links := by
  unfold append
  split <;> rfl

@[simp]
theorem fresh_append : (disk.append ino bytes now).fresh = disk.fresh := by
  unfold append
  split <;> rfl

theorem content_append (other : Nat) :
    ((disk.append ino bytes now).inodes other).content =
      if other = ino then (disk.inodes other).content ++ bytes
      else (disk.inodes other).content := by
  unfold append
  split
  · rename_i nothing
    rw [List.isEmpty_iff.mp nothing, List.append_nil, ite_self]
  · by_cases same : other = ino
    · subst same
      simp [update]
    · simp [update, same]

theorem modified_append (other : Nat) :
    ((disk.append ino bytes now).inodes other).modified =
      if other = ino ∧ bytes ≠ [] then now else (disk.inodes other).modified := by
  unfold append
  split
  · rename_i nothing
    rw [if_neg fun written => written.2 (List.isEmpty_iff.mp nothing)]
  · rename_i something
    have nonempty : bytes ≠ [] := fun nothing => something (List.isEmpty_iff.mpr nothing)
    by_cases same : other = ino
    · subst same
      simp [update, nonempty]
    · simp [update, same]

/-- Writing through a handle extends the file that carries its inode. -/
theorem read_append (other : P) :
    (disk.append ino bytes now).read other =
      if disk.links other = some ino then (disk.read other).map (· ++ bytes)
      else disk.read other := by
  unfold read
  rw [links_append]
  cases linked : disk.links other with
  | none => simp
  | some found =>
      by_cases same : found = ino
      · subst same
        simp [content_append]
      · simp [content_append, same]

end

variable [DecidableEq P]

/-! ## Directory entries -/

/-- Move the link of one path to another one; what was linked there is gone. -/
def relink (source target : P) (disk : Disk P β) : Disk P β where
  links path :=
    if path = target then disk.links source
    else if path = source then none
    else disk.links path
  inodes := disk.inodes
  fresh := disk.fresh
  linked_lt := by
    intro path ino linked
    split_ifs at linked <;> exact disk.linked_lt linked
  one_name := by
    intro first second ino firstLinked secondLinked
    by_cases firstTarget : first = target <;> by_cases secondTarget : second = target
    · exact firstTarget.trans secondTarget.symm
    · rw [if_pos firstTarget] at firstLinked
      rw [if_neg secondTarget] at secondLinked
      split at secondLinked
      · contradiction
      · rename_i notSource
        exact absurd (disk.one_name secondLinked firstLinked) notSource
    · rw [if_neg firstTarget] at firstLinked
      rw [if_pos secondTarget] at secondLinked
      split at firstLinked
      · contradiction
      · rename_i notSource
        exact absurd (disk.one_name firstLinked secondLinked) notSource
    · rw [if_neg firstTarget] at firstLinked
      rw [if_neg secondTarget] at secondLinked
      split at firstLinked
      · contradiction
      · split at secondLinked
        · contradiction
        · exact disk.one_name firstLinked secondLinked

/-- Drop the link of a path. -/
def unlink (path : P) (disk : Disk P β) : Disk P β where
  links other := if other = path then none else disk.links other
  inodes := disk.inodes
  fresh := disk.fresh
  linked_lt := by
    intro other ino linked
    split_ifs at linked
    exact disk.linked_lt linked
  one_name := by
    intro first second ino firstLinked secondLinked
    split_ifs at firstLinked secondLinked
    exact disk.one_name firstLinked secondLinked

/-- Link a path to a new empty file. -/
def create (path : P) (now : Int) (disk : Disk P β) : Disk P β where
  links other := if other = path then some disk.fresh else disk.links other
  inodes := Function.update disk.inodes disk.fresh { content := [], modified := now }
  fresh := disk.fresh + 1
  linked_lt := by
    intro other ino linked
    split_ifs at linked
    · exact Option.some.inj linked ▸ Nat.lt_succ_self disk.fresh
    · exact Nat.lt_succ_of_lt (disk.linked_lt linked)
  one_name := by
    intro first second ino firstLinked secondLinked
    by_cases firstNew : first = path <;> by_cases secondNew : second = path
    · exact firstNew.trans secondNew.symm
    · rw [if_pos firstNew] at firstLinked
      rw [if_neg secondNew] at secondLinked
      cases firstLinked
      exact absurd (disk.linked_lt secondLinked) (Nat.lt_irrefl _)
    · rw [if_neg firstNew] at firstLinked
      rw [if_pos secondNew] at secondLinked
      cases secondLinked
      exact absurd (disk.linked_lt firstLinked) (Nat.lt_irrefl _)
    · rw [if_neg firstNew] at firstLinked
      rw [if_neg secondNew] at secondLinked
      exact disk.one_name firstLinked secondLinked

section

variable (disk : Disk P β) (path : P) (now : Int)

@[simp]
theorem fresh_create : (disk.create path now).fresh = disk.fresh + 1 :=
  rfl

@[simp]
theorem inodes_create : (disk.create path now).inodes =
    Function.update disk.inodes disk.fresh { content := [], modified := now } :=
  rfl

omit [DecidableEq P] in
@[simp]
theorem inodes_update (ino : Nat) (data : Inode β) :
    (disk.update ino data).inodes = Function.update disk.inodes ino data :=
  rfl

end

@[simp]
theorem read_create_self (disk : Disk P β) (path : P) (now : Int) :
    (disk.create path now).read path = some [] := by
  simp [read, create]

/-- A new file changes no other one. -/
theorem read_create_of_ne (disk : Disk P β) {path other : P} (distinct : other ≠ path)
    (now : Int) : (disk.create path now).read other = disk.read other := by
  have links : (disk.create path now).links other = disk.links other := if_neg distinct
  rw [read, read, links]
  cases linked : disk.links other with
  | none => rfl
  | some ino =>
      have old := Nat.ne_of_lt (disk.linked_lt linked)
      simp [old]

omit [DecidableEq P] in
theorem read_update_of_ne (disk : Disk P β) {path : P} {ino : Nat}
    (other : disk.links path ≠ some ino) (data : Inode β) :
    (disk.update ino data).read path = disk.read path := by
  change (disk.links path).map _ = (disk.links path).map _
  cases linked : disk.links path with
  | none => rfl
  | some found =>
      have distinct : found ≠ ino := fun same => other (linked.trans (congrArg some same))
      simp [distinct]

/-! ## The calls -/

/-- `remove_file`. -/
def remove (succeeds : Bool) (path : P) (disk : Disk P β) : Option (Disk P β) :=
  if succeeds ∧ disk.links path ≠ none then some (disk.unlink path) else none

/-- `rename`. -/
def rename (succeeds : Bool) (source target : P) (disk : Disk P β) : Option (Disk P β) :=
  if succeeds ∧ disk.links source ≠ none then some (disk.relink source target) else none

/-- `open` with the flags `create` and `append`. -/
def openAppend (succeeds : Bool) (now : Int) (path : P) (disk : Disk P β) :
    Option (Nat × Disk P β) :=
  if succeeds then
    match disk.links path with
    | some ino => some (ino, disk)
    | none => some (disk.fresh, disk.create path now)
  else none

/-- `open` with the flags `create`, `write` and `truncate`. -/
def openTruncate (succeeds : Bool) (now : Int) (path : P) (disk : Disk P β) :
    Option (Nat × Disk P β) :=
  if succeeds then
    match disk.links path with
    | some ino => some (ino, disk.update ino { content := [], modified := now })
    | none => some (disk.fresh, disk.create path now)
  else none

/-- `remove_file` with its result ignored. -/
def tryRemove (succeeds : Bool) (path : P) (disk : Disk P β) : Disk P β :=
  (disk.remove succeeds path).getD disk

/-- `rename` with its result ignored. -/
def tryRename (succeeds : Bool) (source target : P) (disk : Disk P β) : Disk P β :=
  (disk.rename succeeds source target).getD disk

/-! ## What the calls do -/

section

variable (disk : Disk P β) (succeeds : Bool) (path source target : P)

theorem links_tryRemove (other : P) :
    (disk.tryRemove succeeds path).links other =
      if succeeds ∧ other = path then none else disk.links other := by
  unfold tryRemove remove
  by_cases effective : succeeds = true ∧ disk.links path ≠ none
  · rw [if_pos effective, Option.getD_some]
    simp [unlink, effective.1]
  · rw [if_neg effective, Option.getD_none]
    by_cases removed : succeeds = true ∧ other = path
    · obtain ⟨works, rfl⟩ := removed
      rw [if_pos ⟨works, rfl⟩]
      by_contra linked
      exact effective ⟨works, linked⟩
    · rw [if_neg removed]

@[simp]
theorem inodes_tryRemove : (disk.tryRemove succeeds path).inodes = disk.inodes := by
  unfold tryRemove remove
  split <;> rfl

@[simp]
theorem fresh_tryRemove : (disk.tryRemove succeeds path).fresh = disk.fresh := by
  unfold tryRemove remove
  split <;> rfl

theorem links_tryRename (other : P) :
    (disk.tryRename succeeds source target).links other =
      if succeeds ∧ disk.links source ≠ none then
        if other = target then disk.links source
        else if other = source then none
        else disk.links other
      else disk.links other := by
  unfold tryRename rename
  split <;> rfl

@[simp]
theorem inodes_tryRename : (disk.tryRename succeeds source target).inodes = disk.inodes := by
  unfold tryRename rename
  split <;> rfl

@[simp]
theorem fresh_tryRename : (disk.tryRename succeeds source target).fresh = disk.fresh := by
  unfold tryRename rename
  split <;> rfl

end

end Disk

end FileSystem
