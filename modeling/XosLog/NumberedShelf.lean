import Mathlib.Tactic.Common

/-!
# Shelves with numbered places

The newest item of a shelf is at place zero.  To push an item, the items below
a limit move up by one place: the item at the limit is given up, and what lies
beyond it stays where it is.  A push with a smaller limit than before therefore
leaves items behind.
-/

universe u

/-- What is at each place. -/
abbrev NumberedShelf (α : Type u) :=
  Nat → Option α

namespace NumberedShelf

variable {α : Type u}

/-- Push an item, with the limit up to which items are moved. -/
def push (limit : Nat) (item : α) (shelf : NumberedShelf α) : NumberedShelf α
  | 0 => some item
  | k + 1 => if k < limit then shelf k else shelf (k + 1)

/-- Change the newest item. -/
def renew (change : α → α) (shelf : NumberedShelf α) : NumberedShelf α
  | 0 => (shelf 0).map change
  | k + 1 => shelf (k + 1)

/-- The height of a shelf after a push: one more while it is below the limit. -/
def raise (limit height : Nat) : Nat :=
  if height < limit then height + 1 else height

/-- Only the place above the height is gained, when it is within the limit. -/
theorem raise_gains {limit height k : Nat} (above : height < k) (inside : k ≤ raise limit height) :
    height < limit ∧ k = height + 1 := by
  unfold raise at inside
  split at inside
  · exact ⟨‹height < limit›, Nat.le_antisymm inside above⟩
  · exact absurd above (Nat.not_lt.mpr inside)

section

variable (limit : Nat) (item : α) (change : α → α) (shelf : NumberedShelf α)

@[simp]
theorem push_zero : push limit item shelf 0 = some item :=
  rfl

@[simp]
theorem renew_zero : renew change shelf 0 = (shelf 0).map change :=
  rfl

@[simp]
theorem renew_succ (k : Nat) : renew change shelf (k + 1) = shelf (k + 1) :=
  rfl

theorem push_succ_of_lt {k : Nat} (below : k < limit) :
    push limit item shelf (k + 1) = shelf k :=
  if_pos below

/-- What lies beyond the limit stays. -/
theorem push_of_limit_lt {k : Nat} (beyond : limit < k) : push limit item shelf k = shelf k := by
  cases k with
  | zero => contradiction
  | succ k => exact if_neg (Nat.not_lt.mpr (Nat.le_of_lt_succ beyond))

/-- A pushed item can be changed before or after the push. -/
theorem renew_push : renew change (push limit item shelf) = push limit (change item) shelf := by
  funext k
  cases k with
  | zero => rfl
  | succ k => rfl

end

/-! ## Full places -/

/-- The places up to a height are the ones in use. -/
def Fills (height : Nat) (shelf : NumberedShelf α) : Prop :=
  ∀ k, shelf k ≠ none ↔ k ≤ height

theorem Fills.push {height : Nat} {shelf : NumberedShelf α} (fills : Fills height shelf)
    (limit : Nat) (item : α) : Fills (raise limit height) (push limit item shelf) := by
  intro k
  unfold raise
  cases k with
  | zero => exact iff_of_true (Option.some_ne_none item) (Nat.zero_le _)
  | succ k =>
      by_cases below : k < limit
      · rw [push_succ_of_lt limit item shelf below, fills k]
        split <;> omega
      · rw [push_of_limit_lt limit item shelf (by omega), fills (k + 1)]
        split <;> omega

theorem Fills.renew {height : Nat} {shelf : NumberedShelf α} (fills : Fills height shelf)
    (change : α → α) : Fills height (renew change shelf) := by
  intro k
  cases k with
  | zero =>
      rw [renew_zero, ne_eq, Option.map_eq_none_iff]
      exact fills 0
  | succ k => exact fills (k + 1)

/-! ## Marked items -/

/-- The places, up to the last one in use, whose items have a property. -/
structure Marks (Marked : α → Prop) (limit : Nat) (places : Nat → Prop) (shelf : NumberedShelf α) :
    Prop where
  beyond : ∀ k, limit < k → shelf k = none
  marked : ∀ k ≤ limit, (∃ item, shelf k = some item ∧ Marked item) ↔ places k

section

variable {Marked : α → Prop} {limit : Nat} {places : Nat → Prop} {shelf : NumberedShelf α}
  (marks : Marks Marked limit places shelf)

include marks

theorem Marks.congr {others : Nat → Prop} (same : ∀ k, places k ↔ others k) :
    Marks Marked limit others shelf :=
  ⟨marks.beyond, fun k inside => (marks.marked k inside).trans (same k)⟩

/-- An unmarked item moves the marked ones up by one place. -/
theorem Marks.push {item : α} (unmarked : ¬ Marked item) :
    Marks Marked limit (fun k => ∃ j, k = j + 1 ∧ places j) (push limit item shelf) := by
  constructor
  · intro k beyond
    rw [push_of_limit_lt limit item shelf beyond]
    exact marks.beyond k beyond
  · intro k inside
    cases k with
    | zero =>
        apply iff_of_false
        · rintro ⟨found, same, isMarked⟩
          obtain rfl := Option.some.inj same
          exact unmarked isMarked
        · rintro ⟨j, same, -⟩
          contradiction
    | succ k =>
        rw [push_succ_of_lt limit item shelf inside, marks.marked k (Nat.le_of_succ_le inside)]
        constructor
        · exact fun place => ⟨k, rfl, place⟩
        · rintro ⟨j, same, place⟩
          obtain rfl := Nat.succ.inj same
          exact place

/-- A change that leaves no mark takes it off the newest item only. -/
theorem Marks.renew {change : α → α} (unmarked : ∀ item, ¬ Marked (change item)) :
    Marks Marked limit (fun k => 0 < k ∧ places k) (renew change shelf) := by
  constructor
  · intro k beyond
    cases k with
    | zero => contradiction
    | succ k => exact marks.beyond (k + 1) beyond
  · intro k inside
    cases k with
    | zero =>
        apply iff_of_false
        · rintro ⟨found, same, isMarked⟩
          obtain ⟨item, -, rfl⟩ := Option.map_eq_some_iff.mp same
          exact unmarked item isMarked
        · exact fun place => Nat.lt_irrefl 0 place.1
    | succ k =>
        rw [renew_succ, marks.marked (k + 1) inside]
        exact ⟨fun place => ⟨Nat.succ_pos k, place⟩, And.right⟩

end

end NumberedShelf
