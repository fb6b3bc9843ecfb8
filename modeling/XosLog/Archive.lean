import Mathlib.Data.List.Infix

/-!
# Bounded archives

An archive keeps a sequence of items in a fixed number of bins, the newest bin
first.  Items are added to the newest bin; rotating opens a new one and gives up
the oldest.  What is retained is always the end of everything ever added.
-/

namespace Archive

universe u

variable {α : Type u}

/-- The items of an archive, oldest first. -/
def history (bins : List (List α)) : List α :=
  bins.reverse.flatten

/-- Add items to the newest bin. -/
def extend (items : List α) : List (List α) → List (List α)
  | [] => []
  | bin :: bins => (bin ++ items) :: bins

/-- Open a new bin and give up the oldest one. -/
def rotate (bins : List (List α)) : List (List α) :=
  [] :: bins.dropLast

/-- A rotation of which only the bins from number `cut` on have been moved. -/
def rotateFrom (cut : Nat) (bins : List (List α)) : List (List α) :=
  bins.take cut ++ rotate (bins.drop cut)

@[simp]
theorem history_nil : history ([] : List (List α)) = [] :=
  rfl

theorem history_append (newer older : List (List α)) :
    history (newer ++ older) = history older ++ history newer := by
  simp [history]

theorem history_cons (bin : List α) (bins : List (List α)) :
    history (bin :: bins) = history bins ++ bin := by
  simp [history]

/-- Adding items adds them at the end of the history. -/
theorem history_extend (items : List α) {bins : List (List α)} (nonempty : bins ≠ []) :
    history (extend items bins) = history bins ++ items := by
  cases bins with
  | nil => contradiction
  | cons bin bins => rw [extend, history_cons, history_cons, List.append_assoc]

/-- A rotation gives up the oldest bin and nothing else. -/
theorem history_rotate {bins : List (List α)} (nonempty : bins ≠ []) :
    history bins = bins.getLast nonempty ++ history (rotate bins) := by
  conv_lhs => rw [← List.dropLast_append_getLast nonempty]
  rw [history_append, history_cons, rotate, history_cons, history_nil, List.nil_append,
    List.append_nil]

/-- So does a rotation that is interrupted. -/
theorem history_rotateFrom {cut : Nat} {bins : List (List α)} (inside : cut < bins.length) :
    history (rotateFrom cut bins) <:+ history bins := by
  have nonempty : bins.drop cut ≠ [] := by
    rw [← List.length_pos_iff, List.length_drop]
    omega
  have split : history bins = history (bins.drop cut) ++ history (bins.take cut) := by
    rw [← history_append, List.take_append_drop]
  rw [split, rotateFrom, history_append, history_rotate nonempty, List.append_assoc]
  exact List.suffix_append _ _

/-- A rotation of bins given by number. -/
theorem rotateFrom_map_range (contents : Nat → List α) {cut count : Nat} (inside : cut ≤ count) :
    rotateFrom cut ((List.range (count + 1)).map contents) =
      (List.range (count + 1)).map fun k =>
        if k < cut then contents k else if k = cut then [] else contents (k - 1) := by
  apply List.ext_getElem
  · simp [rotateFrom, rotate]
    omega
  · intro k left right
    have bound : k < count + 1 := by simpa using right
    rw [List.getElem_map, List.getElem_range]
    by_cases before : k < cut
    · have first : k < (((List.range (count + 1)).map contents).take cut).length := by
        simp
        omega
      simp only [rotateFrom]
      rw [List.getElem_append_left first, if_pos before]
      simp
    · have later : (((List.range (count + 1)).map contents).take cut).length ≤ k := by
        simp
        omega
      have length : (((List.range (count + 1)).map contents).take cut).length = cut := by
        simp
        omega
      simp only [rotateFrom]
      rw [List.getElem_append_right later, if_neg before]
      by_cases same : k = cut
      · subst same
        simp [rotate, length]
      · obtain ⟨j, isLater⟩ : ∃ j, k - cut = j + 1 := ⟨k - cut - 1, by omega⟩
        have shifted : cut + j = k - 1 := by omega
        simp [rotate, length, same, isLater, shifted]

/-! ## Chunks -/

/-- The archive of the concatenated chunks follows the archive of the chunks. -/
theorem map_flatten_rotate (bins : List (List (List α))) :
    (rotate bins).map List.flatten = rotate (bins.map List.flatten) := by
  simp [rotate, List.map_dropLast]

theorem map_flatten_extend (chunk : List α) (bins : List (List (List α))) :
    (extend [chunk] bins).map List.flatten = extend chunk (bins.map List.flatten) := by
  cases bins with
  | nil => rfl
  | cons bin bins => simp [extend]

theorem history_map_flatten (bins : List (List (List α))) :
    history (bins.map List.flatten) = (history bins).flatten := by
  induction bins with
  | nil => rfl
  | cons bin bins ih => rw [List.map_cons, history_cons, ih, history_cons, List.flatten_append]

/-- An archive with one chunk in each bin. -/
theorem history_map_singleton (chunks : List (List α)) :
    history (chunks.map fun chunk => [chunk]) = chunks.reverse := by
  induction chunks with
  | nil => rfl
  | cons chunk chunks ih => rw [List.map_cons, history_cons, ih, List.reverse_cons]

end Archive
