import Mathlib.Data.List.Basic

/-!
# Nearest-ancestor lookup

A node of a tree is addressed by the path that leads to it from the root.  Some
nodes are assigned a value; a path is resolved to the value of its deepest
non-root prefix that has one.
-/

namespace Hierarchy

universe u v

variable {α : Type u} {β : Type v} (assigned : List α → Option β)

/-- The value of the deepest assigned node among a path and its ancestors, the
root excepted. -/
def nearest (path : List α) : Option β :=
  (List.range path.length).reverse.findSome? fun depth => assigned (path.take (depth + 1))

/-- The nearest value is that of a node on the path below which no node of the
path is assigned. -/
theorem nearest_eq_some {path : List α} {value : β} {depth : Nat}
    (positive : 0 < depth) (onPath : depth ≤ path.length)
    (found : assigned (path.take depth) = some value)
    (deepest : ∀ deeper ≤ path.length, depth < deeper → assigned (path.take deeper) = none) :
    nearest assigned path = some value := by
  obtain ⟨depth, rfl⟩ : ∃ k, depth = k + 1 := ⟨depth - 1, by omega⟩
  obtain ⟨below, split⟩ : ∃ below, path.length = (depth + 1) + below :=
    ⟨path.length - (depth + 1), by omega⟩
  have skipped : ((List.range below).map fun k => depth + 1 + k).reverse.findSome?
      (fun depth => assigned (path.take (depth + 1))) = none := by
    rw [List.findSome?_eq_none_iff]
    intro k member
    obtain ⟨j, inRange, rfl⟩ := List.mem_map.mp (List.mem_reverse.mp member)
    exact deepest _ (by rw [split]; have := List.mem_range.mp inRange; omega) (by omega)
  rw [nearest, split, List.range_add, List.reverse_append, List.findSome?_append, skipped,
    Option.none_or, List.range_succ, List.reverse_append]
  simp [found]

theorem nearest_eq_none {path : List α}
    (unassigned : ∀ depth ≤ path.length, 0 < depth → assigned (path.take depth) = none) :
    nearest assigned path = none := by
  rw [nearest, List.findSome?_eq_none_iff]
  intro depth member
  exact unassigned _ (List.mem_range.mp (List.mem_reverse.mp member)) (Nat.succ_pos depth)

/-- Only the assignments along the path matter. -/
theorem nearest_congr {assigned other : List α → Option β} {path : List α}
    (agree : ∀ depth ≤ path.length, 0 < depth →
      assigned (path.take depth) = other (path.take depth)) :
    nearest assigned path = nearest other path := by
  have pointwise : ∀ depths : List Nat, (∀ depth ∈ depths, depth < path.length) →
      depths.findSome? (fun depth => assigned (path.take (depth + 1))) =
        depths.findSome? (fun depth => other (path.take (depth + 1))) := by
    intro depths inside
    induction depths with
    | nil => rfl
    | cons depth depths ih =>
        rw [List.findSome?_cons, List.findSome?_cons,
          agree (depth + 1) (inside depth List.mem_cons_self) (Nat.succ_pos depth),
          ih fun later member => inside later (List.mem_cons_of_mem depth member)]
  exact pointwise _ fun depth member => List.mem_range.mp (List.mem_reverse.mp member)

end Hierarchy
