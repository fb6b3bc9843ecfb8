import Mathlib.Data.List.DropRight
import XosLog.Text

/-!
# Trimming and splitting

A text is its trimmed middle between blank ends, so blanks added at an end are
trimmed with it.  The pieces of a split text are made of its other characters.
-/

namespace XosLog.Text

/-- A text of white space. -/
def Blank (text : Text) : Prop :=
  ∀ c ∈ text, isWhitespace c = true

theorem Blank.nil : Blank [] :=
  fun _ member => absurd member List.not_mem_nil

theorem Blank.append {first second : Text} (firstBlank : Blank first)
    (secondBlank : Blank second) : Blank (first ++ second) := by
  intro c member
  rcases List.mem_append.mp member with early | late
  · exact firstBlank c early
  · exact secondBlank c late

theorem Blank.replicate (n : Nat) : Blank (List.replicate n ' ') := by
  intro c member
  rw [List.eq_of_mem_replicate member]
  rfl

/-- `str::trim_start` -/
def trimStart (text : Text) : Text :=
  text.dropWhile isWhitespace

/-- `str::trim_end` -/
def trimEnd (text : Text) : Text :=
  text.rdropWhile isWhitespace

theorem trimStart_append {front : Text} (blank : Blank front) (text : Text) :
    trimStart (front ++ text) = trimStart text :=
  List.dropWhile_append_of_pos blank

theorem trimEnd_append (text : Text) {back : Text} (blank : Blank back) :
    trimEnd (text ++ back) = trimEnd text := by
  have reversed : ∀ c ∈ back.reverse, isWhitespace c = true := by
    intro c member
    exact blank c (List.mem_reverse.mp member)
  rw [trimEnd, trimEnd, List.rdropWhile, List.rdropWhile, List.reverse_append,
    List.dropWhile_append_of_pos reversed]

theorem trim_append_left {front : Text} (blank : Blank front) (text : Text) :
    trim (front ++ text) = trim text :=
  congrArg trimEnd (trimStart_append blank text)

theorem blank_of_trimStart_eq_nil {text : Text} (empty : trimStart text = []) : Blank text :=
  List.dropWhile_eq_nil_iff.mp empty

theorem trim_append_right (text : Text) {back : Text} (blank : Blank back) :
    trim (text ++ back) = trim text := by
  by_cases empty : trimStart text = []
  · have all := blank_of_trimStart_eq_nil empty
    have nothing : trim [] = [] := rfl
    rw [← List.append_nil (text ++ back), trim_append_left (all.append blank), nothing,
      ← List.append_nil text, trim_append_left all, nothing]
  · have split : trimStart (text ++ back) = trimStart text ++ back := by
      have something : ¬ (List.dropWhile isWhitespace text).isEmpty = true :=
        mt List.isEmpty_iff.mp empty
      rw [trimStart, List.dropWhile_append, if_neg something]
      rfl
    change trimEnd (trimStart (text ++ back)) = trimEnd (trimStart text)
    rw [split, trimEnd_append _ blank]

theorem exists_trimStart (text : Text) : ∃ front, Blank front ∧ text = front ++ trimStart text :=
  ⟨text.takeWhile isWhitespace, fun _ member => List.mem_takeWhile_imp member,
    List.takeWhile_append_dropWhile.symm⟩

theorem exists_trimEnd (text : Text) : ∃ back, Blank back ∧ text = trimEnd text ++ back :=
  ⟨text.rtakeWhile isWhitespace, fun _ member => List.mem_rtakeWhile_imp member,
    List.rdropWhile_append_rtakeWhile.symm⟩

/-- A text is its trimmed middle between blank ends. -/
theorem exists_trim (text : Text) :
    ∃ front back, Blank front ∧ Blank back ∧ text = front ++ trim text ++ back := by
  obtain ⟨front, frontBlank, split⟩ := exists_trimStart text
  obtain ⟨back, backBlank, cut⟩ := exists_trimEnd (trimStart text)
  refine ⟨front, back, frontBlank, backBlank, ?_⟩
  rw [List.append_assoc]
  change text = front ++ (trimEnd (trimStart text) ++ back)
  rw [← cut, ← split]

@[simp]
theorem trim_trim (text : Text) : trim (trim text) = trim text := by
  obtain ⟨front, back, frontBlank, backBlank, split⟩ := exists_trim text
  conv_rhs => rw [split, trim_append_right _ backBlank, trim_append_left frontBlank]

theorem mem_of_mem_trimStart {c : Char} {text : Text} (member : c ∈ trimStart text) : c ∈ text := by
  obtain ⟨front, _, split⟩ := exists_trimStart text
  rw [split]
  exact List.mem_append_right front member

theorem mem_of_mem_trimEnd {c : Char} {text : Text} (member : c ∈ trimEnd text) : c ∈ text := by
  obtain ⟨back, _, split⟩ := exists_trimEnd text
  rw [split]
  exact List.mem_append_left back member

theorem trim_trimEnd (text : Text) : trim (trimEnd text) = trim text := by
  obtain ⟨back, blank, split⟩ := exists_trimEnd text
  conv_rhs => rw [split, trim_append_right _ blank]

theorem trimStart_eq_nil_of_trim {text : Text} (empty : trim text = []) : trimStart text = [] := by
  have blank : Blank (trimStart text) := List.rdropWhile_eq_nil_iff.mp empty
  have again : trimStart (trimStart text) = [] := List.dropWhile_eq_nil_iff.mpr blank
  rwa [trimStart, trimStart, List.dropWhile_idempotent] at again

theorem mem_of_mem_trim {c : Char} {text : Text} (member : c ∈ trim text) : c ∈ text := by
  obtain ⟨front, back, _, _, split⟩ := exists_trim text
  rw [split]
  exact List.mem_append_left _ (List.mem_append_right _ member)

theorem mem_trim {c : Char} (visible : isWhitespace c = false) (text : Text) :
    c ∈ trim text ↔ c ∈ text := by
  obtain ⟨front, back, frontBlank, backBlank, split⟩ := exists_trim text
  constructor
  · exact mem_of_mem_trim
  · intro member
    rw [split, List.mem_append, List.mem_append] at member
    rcases member with (early | member) | late
    · rw [frontBlank c early] at visible
      contradiction
    · exact member
    · rw [backBlank c late] at visible
      contradiction

theorem trimStart_visible {c : Char} (visible : isWhitespace c = false) (left right : Text) :
    trimStart (left ++ c :: right) = trimStart left ++ c :: right := by
  rw [trimStart, List.dropWhile_append, List.dropWhile_cons_of_neg (by simp [visible])]
  split
  · rename_i empty
    rw [trimStart, List.isEmpty_iff.mp empty, List.nil_append]
  · rfl

theorem trimEnd_visible {c : Char} (visible : isWhitespace c = false) (left right : Text) :
    trimEnd (left ++ c :: right) = left ++ c :: trimEnd right := by
  have reversed := trimStart_visible visible right.reverse left.reverse
  rw [trimEnd, List.rdropWhile, List.reverse_append, List.reverse_cons, List.append_assoc,
    List.singleton_append]
  change (trimStart (right.reverse ++ c :: left.reverse)).reverse = _
  rw [reversed]
  simp [trimEnd, List.rdropWhile, trimStart]

theorem trimStart_trimEnd (text : Text) : trimStart (trimEnd text) = trim text := by
  obtain ⟨front, blank, split⟩ := exists_trimStart text
  cases start : trimStart text with
  | nil =>
      have nothing : trimEnd text = [] := by
        rw [split, start, List.append_nil]
        exact List.rdropWhile_eq_nil_iff.mpr blank
      change _ = trimEnd (trimStart text)
      rw [nothing, start]
      rfl
  | cons c rest =>
      have visible : isWhitespace c = false := by
        have head := List.head?_dropWhile_not isWhitespace text
        rw [show text.dropWhile isWhitespace = c :: rest from start] at head
        exact head
      have stays (tail : Text) : trimStart (c :: tail) = c :: tail :=
        List.dropWhile_cons_of_neg (by simp [visible])
      change _ = trimEnd (trimStart text)
      rw [start]
      conv_lhs => rw [split, start, trimEnd_visible visible, trimStart_append blank, stays]
      exact (trimEnd_visible visible [] rest).symm

/-- A visible character keeps the ends apart. -/
theorem trim_visible {c : Char} (visible : isWhitespace c = false) (left right : Text) :
    trim (left ++ c :: right) = trimStart left ++ c :: trimEnd right := by
  change trimEnd (trimStart (left ++ c :: right)) = _
  rw [trimStart_visible visible, trimEnd_visible visible]

/-! ## Pieces -/

theorem mem_splitOn {separator : Char} {text piece : Text}
    (member : piece ∈ text.splitOn separator) {c : Char} (inside : c ∈ piece) :
    c ∈ text ∧ c ≠ separator := by
  induction text generalizing piece with
  | nil =>
      rw [List.splitOn_nil, List.mem_singleton] at member
      rw [member] at inside
      contradiction
  | cons head text inductionHypothesis =>
      obtain ⟨first, others, split⟩ :=
        List.exists_cons_of_ne_nil (List.splitOn_ne_nil separator text)
      have rest : ∀ piece ∈ first :: others, c ∈ piece → c ∈ head :: text ∧ c ≠ separator := by
        intro piece member inside
        obtain ⟨later, different⟩ := inductionHypothesis (split ▸ member) inside
        exact ⟨List.mem_cons_of_mem head later, different⟩
      rw [List.splitOn_cons_eq_if_modifyHead, split] at member
      by_cases cut : head = separator
      · rw [if_pos (beq_iff_eq.mpr cut), List.mem_cons] at member
        rcases member with rfl | later
        · contradiction
        · exact rest piece later inside
      · rw [if_neg (mt beq_iff_eq.mp cut), List.modifyHead_cons, List.mem_cons] at member
        rcases member with rfl | later
        · rcases List.mem_cons.mp inside with rfl | within
          · exact ⟨List.mem_cons_self, cut⟩
          · exact rest first List.mem_cons_self within
        · exact rest piece (List.mem_cons_of_mem first later) inside

theorem not_mem_intercalate {separator c : Char} (different : c ≠ separator) {pieces : List Text}
    (free : ∀ piece ∈ pieces, c ∉ piece) : c ∉ [separator].intercalate pieces := by
  induction pieces with
  | nil => exact List.not_mem_nil
  | cons first others inductionHypothesis =>
      cases others with
      | nil =>
          rw [List.intercalate_singleton]
          exact free first List.mem_cons_self
      | cons second others =>
          rw [List.intercalate_cons_cons, List.mem_append, List.mem_append, List.mem_singleton]
          rintro ((early | same) | late)
          · exact free first List.mem_cons_self early
          · exact different same
          · exact inductionHypothesis (fun piece member =>
              free piece (List.mem_cons_of_mem first member)) late

theorem splitOn_ne_nil (separator : Char) (text : Text) :
    ∃ first others, text.splitOn separator = first :: others :=
  List.exists_cons_of_ne_nil (List.splitOn_ne_nil separator text)

end XosLog.Text
