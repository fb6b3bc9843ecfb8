import XosLog.FileSystem.Disk

/-!
# Cascades of renames

Files kept under numbered names are shifted by one by renaming the last one
first.  Results are ignored, so that a rename that fails leaves its file where
it is, and the next one overwrites it.
-/

namespace FileSystem.Disk

universe u v

variable {P : Type u} {β : Type v} [DecidableEq P]

/-- Rename `slots k` to `slots (k + 1)` for the `count` numbers from `count - 1`
down to zero. -/
def cascade (slots : Nat → P) (succeeds : Nat → Bool) : Nat → Disk P β → Disk P β
  | 0, disk => disk
  | count + 1, disk =>
      cascade slots succeeds count
        (disk.tryRename (succeeds count) (slots count) (slots (count + 1)))

variable (slots : Nat → P) (succeeds : Nat → Bool)

/-- The rename away from a slot takes effect. -/
def Moves (disk : Disk P β) (k : Nat) : Prop :=
  succeeds k = true ∧ disk.links (slots k) ≠ none

instance (disk : Disk P β) (k : Nat) : Decidable (disk.Moves slots succeeds k) :=
  inferInstanceAs (Decidable (_ ∧ _))

@[simp]
theorem inodes_cascade (count : Nat) (disk : Disk P β) :
    (disk.cascade slots succeeds count).inodes = disk.inodes := by
  induction count generalizing disk with
  | zero => rfl
  | succ count ih => rw [cascade, ih, inodes_tryRename]

@[simp]
theorem fresh_cascade (count : Nat) (disk : Disk P β) :
    (disk.cascade slots succeeds count).fresh = disk.fresh := by
  induction count generalizing disk with
  | zero => rfl
  | succ count ih => rw [cascade, ih, fresh_tryRename]

variable {slots} (distinct : Function.Injective slots)
include distinct

theorem links_tryRename_slot (disk : Disk P β) (k slot : Nat) :
    (disk.tryRename (succeeds k) (slots k) (slots (k + 1))).links (slots slot) =
      if disk.Moves slots succeeds k ∧ slot = k + 1 then disk.links (slots k)
      else if disk.Moves slots succeeds k ∧ slot = k then none
      else disk.links (slots slot) := by
  rw [links_tryRename]
  by_cases moves : succeeds k = true ∧ disk.links (slots k) ≠ none
  · have moved : disk.Moves slots succeeds k := moves
    simp only [if_pos moves, moved, true_and, distinct.eq_iff]
  · have stays : ¬ disk.Moves slots succeeds k := moves
    simp only [if_neg moves, stays, false_and, if_false]

/-- Where a cascade leaves the files: a slot gets the one from below when that
one moves, is empty when only its own one moves, and keeps it otherwise. -/
theorem links_cascade (count : Nat) (disk : Disk P β) (slot : Nat) :
    (disk.cascade slots succeeds count).links (slots slot) =
      if 0 < slot ∧ slot ≤ count ∧ disk.Moves slots succeeds (slot - 1) then
        disk.links (slots (slot - 1))
      else if slot < count ∧ disk.Moves slots succeeds slot then none
      else disk.links (slots slot) := by
  induction count generalizing disk with
  | zero =>
      rw [if_neg (by omega), if_neg (by omega)]
      rfl
  | succ count ih =>
      have lower : ∀ k < count,
          (disk.tryRename (succeeds count) (slots count) (slots (count + 1))).links (slots k) =
            disk.links (slots k) := by
        intro k below
        rw [links_tryRename_slot succeeds distinct, if_neg (by omega), if_neg (by omega)]
      have lowerMoves : ∀ k < count,
          ((disk.tryRename (succeeds count) (slots count) (slots (count + 1))).Moves slots
            succeeds k ↔ disk.Moves slots succeeds k) := by
        intro k below
        rw [Moves, lower k below, Moves]
      rw [cascade, ih]
      rcases Nat.lt_trichotomy slot count with below | rfl | above
      · simp only [lowerMoves slot below, lower slot below]
        by_cases positive : 0 < slot
        · simp only [lowerMoves (slot - 1) (by omega), lower (slot - 1) (by omega)]
          simp only [positive, Nat.le_of_lt below, Nat.le_succ_of_le (Nat.le_of_lt below), below,
            Nat.lt_succ_of_lt below]
        · simp only [positive, false_and, if_false, below, Nat.lt_succ_of_lt below]
      · have own : (disk.tryRename (succeeds slot) (slots slot) (slots (slot + 1))).links
            (slots slot) = if disk.Moves slots succeeds slot then none
              else disk.links (slots slot) := by
          rw [links_tryRename_slot succeeds distinct, if_neg (by omega)]
          simp only [and_true]
        simp only [own, Nat.lt_irrefl, false_and, if_false, Nat.lt_succ_self, true_and]
        by_cases positive : 0 < slot
        · have pred : slot - 1 < slot := Nat.sub_lt positive Nat.one_pos
          simp only [lowerMoves _ pred, lower _ pred, Nat.le_refl, Nat.le_succ]
        · simp only [positive, false_and, if_false]
      · rw [if_neg (by omega), if_neg (by omega), links_tryRename_slot succeeds distinct]
        rcases Nat.lt_or_eq_of_le (Nat.succ_le_of_lt above) with further | rfl
        · rw [if_neg (by omega), if_neg (by omega), if_neg (by omega), if_neg (by omega)]
        · simp

theorem links_cascade_zero {count : Nat} (some : 0 < count) (disk : Disk P β) :
    (disk.cascade slots succeeds count).links (slots 0) =
      if disk.Moves slots succeeds 0 then none else disk.links (slots 0) := by
  rw [links_cascade succeeds distinct, if_neg (fun moved => Nat.lt_irrefl 0 moved.1)]
  simp only [some, true_and]

theorem links_cascade_succ {count k : Nat} (below : k < count) (disk : Disk P β) :
    (disk.cascade slots succeeds count).links (slots (k + 1)) =
      if disk.Moves slots succeeds k then disk.links (slots k)
      else if k + 1 < count ∧ disk.Moves slots succeeds (k + 1) then none
      else disk.links (slots (k + 1)) := by
  rw [links_cascade succeeds distinct]
  simp only [Nat.succ_pos, Nat.succ_le_of_lt below, true_and, Nat.add_sub_cancel]

end FileSystem.Disk
