import Mathlib.Data.List.Perm.Basic
import Mathlib.Logic.Function.Basic
import XosLog.NumberedShelf

/-!
# A shelf with several writers

Each writer holds one item of the shelf and adds to it.  A writer that pushes a new
item holds that one from then on; the others keep holding theirs, which have moved up
by one place or have been given up.  What is added to an item that was given up is
missed.
-/

universe u v

namespace NumberedShelf

variable {α : Type u}

/-- Change the item at a place. -/
def renewAt (place : Nat) (change : α → α) (shelf : NumberedShelf α) : NumberedShelf α :=
  Function.update shelf place ((shelf place).map change)

/-- The entries up to a limit, the newest item first. -/
def entries (limit : Nat) (shelf : NumberedShelf (List α)) : List α :=
  (List.range (limit + 1)).flatMap fun k => (shelf k).getD []

/-- A push gives up the item at the limit. -/
theorem entries_push (limit : Nat) (shelf : NumberedShelf (List α)) :
    entries limit (push limit [] shelf) ++ (shelf limit).getD [] = entries limit shelf := by
  have moved : entries limit (push limit [] shelf) =
      (List.range limit).flatMap fun k => (shelf k).getD [] := by
    rw [entries, List.range_succ_eq_map, List.flatMap_cons, List.flatMap_map, push_zero,
      Option.getD_some, List.nil_append]
    rw [List.flatMap_def, List.flatMap_def]
    congr 1
    apply List.map_congr_left
    intro k member
    rw [Nat.succ_eq_add_one, push_succ_of_lt limit [] shelf (List.mem_range.mp member)]
  rw [moved, entries, List.range_succ, List.flatMap_append, List.flatMap_singleton]

/-- An entry is added at one place only. -/
theorem entries_renewAt {limit place : Nat} {shelf : NumberedShelf (List α)} {item : List α}
    (inside : place ≤ limit) (used : shelf place = some item) (entry : α) :
    (entries limit (renewAt place (· ++ [entry]) shelf)).Perm (entries limit shelf ++ [entry]) := by
  have unchanged : ∀ count, count ≤ place →
      ((List.range count).flatMap fun k => (renewAt place (· ++ [entry]) shelf k).getD []) =
        (List.range count).flatMap fun k => (shelf k).getD [] := by
    intro count before
    rw [List.flatMap_def, List.flatMap_def]
    congr 1
    apply List.map_congr_left
    intro k member
    have below := Nat.lt_of_lt_of_le (List.mem_range.mp member) before
    rw [renewAt, Function.update_of_ne (Nat.ne_of_lt below)]
  have own : (renewAt place (· ++ [entry]) shelf place).getD [] = item ++ [entry] := by
    rw [renewAt, Function.update_self, used]
    rfl
  induction limit with
  | zero =>
      obtain rfl := Nat.le_zero.mp inside
      simp [entries, own, used]
  | succ limit inductionHypothesis =>
      have split : ∀ shelf : NumberedShelf (List α), entries (limit + 1) shelf =
          entries limit shelf ++ (shelf (limit + 1)).getD [] := by
        intro shelf
        rw [entries, List.range_succ, List.flatMap_append, List.flatMap_singleton]
        rfl
      rw [split, split]
      rcases Nat.lt_or_eq_of_le inside with below | rfl
      · have other : renewAt place (· ++ [entry]) shelf (limit + 1) = shelf (limit + 1) :=
          Function.update_of_ne (Nat.ne_of_gt below) _ _
        rw [other, List.append_assoc]
        have added := (inductionHypothesis (Nat.le_of_lt_succ below)).append_right
          ((shelf (limit + 1)).getD [])
        rw [List.append_assoc] at added
        exact added.trans (List.perm_append_comm.append_left _)
      · rw [own, used, entries, unchanged _ (Nat.le_refl _), ← entries, Option.getD_some,
          List.append_assoc]

end NumberedShelf

/-- A shelf of items to which several writers add entries: how many pushes of others
each writer has not followed, and the entries that are no longer on the shelf, as they
were given up with their item or were added to one that had been. -/
structure SharedShelf (ι : Type u) (α : Type v) where
  shelf : NumberedShelf (List α)
  age : ι → Nat
  dropped : List α
  missed : List α

namespace SharedShelf

open NumberedShelf

variable {ι : Type u} {α : Type v} [DecidableEq ι] (limit : Nat) (writer : ι)

/-- A writer pushes an empty item and holds it from then on. -/
def push (shared : SharedShelf ι α) : SharedShelf ι α where
  shelf := NumberedShelf.push limit [] shared.shelf
  age := Function.update (fun other => shared.age other + 1) writer 0
  dropped := shared.dropped ++ (shared.shelf limit).getD []
  missed := shared.missed

/-- A writer adds an entry to the item it holds. -/
def write (entry : α) (shared : SharedShelf ι α) : SharedShelf ι α :=
  if shared.age writer ≤ limit then
    { shared with shelf := renewAt (shared.age writer) (· ++ [entry]) shared.shelf }
  else { shared with missed := shared.missed ++ [entry] }

/-- A writer lets go of its item and takes the newest one. -/
def attach (shared : SharedShelf ι α) : SharedShelf ι α :=
  { shared with age := Function.update shared.age writer 0 }

/-- The entries of the past are each in one item, given up or missed, and in order. -/
structure Accounts (past : List α) (shared : SharedShelf ι α) : Prop where
  split : (entries limit shared.shelf ++ shared.dropped ++ shared.missed).Perm past
  ordered : ∀ k ≤ limit, ∀ item, shared.shelf k = some item → item.Sublist past
  used : ∀ writer, shared.age writer ≤ limit → shared.shelf (shared.age writer) ≠ none
  newest : shared.shelf 0 ≠ none

variable {limit} {past : List α} {shared : SharedShelf ι α}

theorem age_push (other : ι) :
    (shared.push limit writer).age other = if other = writer then 0 else shared.age other + 1 := by
  simp only [push, Function.update_apply]

theorem shelf_push_succ {k : Nat} (below : k < limit) :
    (shared.push limit writer).shelf (k + 1) = shared.shelf k :=
  push_succ_of_lt limit [] shared.shelf below

theorem Accounts.push (accounts : Accounts limit past shared) :
    Accounts limit past (shared.push limit writer) := by
  constructor
  · have given := entries_push limit shared.shelf
    have split := accounts.split
    rw [← given] at split
    refine List.Perm.trans (List.Perm.append_right _ ?_) split
    rw [List.append_assoc]
    exact List.perm_append_comm.append_left _
  · intro k inside item found
    cases k with
    | zero =>
        obtain rfl := Option.some.inj found
        exact List.nil_sublist _
    | succ k =>
        rw [shelf_push_succ writer inside] at found
        exact accounts.ordered k (Nat.le_of_succ_le inside) item found
  · intro other inside
    rw [age_push writer] at inside ⊢
    by_cases own : other = writer
    · rw [if_pos own]
      exact Option.some_ne_none _
    · rw [if_neg own] at inside ⊢
      rw [shelf_push_succ writer inside]
      exact accounts.used other (Nat.le_of_succ_le inside)
  · exact Option.some_ne_none _

omit [DecidableEq ι] in
theorem Accounts.write (accounts : Accounts limit past shared) (entry : α) :
    Accounts limit (past ++ [entry]) (shared.write limit writer entry) := by
  unfold SharedShelf.write
  by_cases held : shared.age writer ≤ limit
  · rw [if_pos held]
    obtain ⟨own, used⟩ := Option.ne_none_iff_exists'.mp (accounts.used writer held)
    have renewed : ∀ k, renewAt (shared.age writer) (· ++ [entry]) shared.shelf k =
        if k = shared.age writer then some (own ++ [entry]) else shared.shelf k := by
      intro k
      rw [renewAt, Function.update_apply, used]
      rfl
    constructor
    · have added := entries_renewAt held used entry
      refine List.Perm.trans ((added.append_right _).append_right _) ?_
      refine List.Perm.trans ?_ (accounts.split.append_right [entry])
      simp only [List.append_assoc]
      refine List.Perm.append_left _ ?_
      rw [← List.append_assoc shared.dropped]
      exact List.perm_append_comm
    · intro k inside item found
      replace found := (renewed k).symm.trans found
      split at found
      · obtain rfl := Option.some.inj found
        exact (accounts.ordered _ held own used).append (List.Sublist.refl _)
      · exact (accounts.ordered k inside item found).trans (List.sublist_append_left _ _)
    · intro other inside
      simp only [renewed]
      split
      · exact Option.some_ne_none _
      · exact accounts.used other inside
    · simp only [renewed]
      split
      · exact Option.some_ne_none _
      · exact accounts.newest
  · rw [if_neg held]
    constructor
    · simp only [← List.append_assoc]
      exact accounts.split.append_right [entry]
    · intro k inside item found
      exact (accounts.ordered k inside item found).trans (List.sublist_append_left _ _)
    · exact accounts.used
    · exact accounts.newest

theorem Accounts.attach (accounts : Accounts limit past shared) :
    Accounts limit past (shared.attach writer) := by
  constructor
  · exact accounts.split
  · exact accounts.ordered
  · intro other inside
    simp only [SharedShelf.attach, Function.update_apply] at inside ⊢
    split
    · exact accounts.newest
    · rename_i others
      rw [if_neg others] at inside
      exact accounts.used other inside
  · exact accounts.newest

end SharedShelf
