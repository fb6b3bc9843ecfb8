import XosLog.Filter.Resolution
import XosLog.Trim

/-!
# The items of a spec

A spec is a comma-separated list of items.  An item without a `=` is a level or
a target, one with a single `=` has a target and a level, and one with more is
skipped.  What a filter decides depends only on its directives with a target,
in their order, and on its global default.
-/

namespace XosLog.Filter

/-- The trimmed items before the `/regex` suffix. -/
def items (spec : Text) : List Text :=
  ((mods spec).splitOn ',').map Text.trim

theorem recognised_eq (spec : Text) : recognised spec = (items spec).filterMap parseItem := by
  rw [items, List.filterMap_map]
  rfl

/-! ## Reading one item -/

theorem parse_trim (text : Text) : Level.parse (Text.trim text) = Level.parse text := by
  rw [Level.parse, Text.trim_trim, Level.parse]

/-- A level name contains no `=`. -/
theorem equals_not_mem_of_parse {text : Text} {level : Level}
    (named : Level.parse text = some level) : '=' ∉ text := by
  intro member
  have kept : '=' ∈ Text.toAsciiLowercase (Text.trim text) := by
    have lower : (if 'A' ≤ '=' ∧ '=' ≤ 'Z' then Char.ofNat ('='.toNat + 32) else '=') = '=' := by
      decide
    rw [Text.toAsciiLowercase, List.mem_map]
    exact ⟨'=', (Text.mem_trim (by decide) text).mpr member, lower⟩
  have absent : ∀ name : Text, '=' ∉ name → Text.toAsciiLowercase (Text.trim text) ≠ name := by
    rintro name free same
    exact free (same ▸ kept)
  have isNone : Level.parse text = none := by
    rw [Level.parse]
    rw [if_neg (absent _ (by decide)), if_neg (absent _ (by decide)), if_neg (absent _ (by decide)),
      if_neg (not_or.mpr ⟨absent _ (by decide), absent _ (by decide)⟩),
      if_neg (absent _ (by decide)), if_neg (absent _ (by decide))]
  rw [isNone] at named
  contradiction

/-- An item has no `=`, or one, or more. -/
theorem equals_cases (item : Text) :
    '=' ∉ item ∨
    (∃ name level, item = name ++ '=' :: level ∧ '=' ∉ name ∧ '=' ∉ level) ∨
    ∃ name level rest, item = name ++ '=' :: level ++ '=' :: rest ∧ '=' ∉ name ∧ '=' ∉ level := by
  by_cases first : '=' ∈ item
  · obtain ⟨name, after, rfl, nameFree⟩ := List.eq_append_cons_of_mem first
    apply Or.inr
    by_cases second : '=' ∈ after
    · obtain ⟨level, rest, rfl, levelFree⟩ := List.eq_append_cons_of_mem second
      exact Or.inr ⟨name, level, rest, by simp, nameFree, levelFree⟩
    · exact Or.inl ⟨name, after, rfl, nameFree, second⟩
  · exact Or.inl first

theorem splitOn_equals {name level : Text} (nameFree : '=' ∉ name) (levelFree : '=' ∉ level) :
    (name ++ '=' :: level).splitOn '=' = [name, level] := by
  rw [List.splitOn_append_cons_self_of_not_mem nameFree, List.splitOn_eq_singleton levelFree]

/-- An item without a `=` is a level or a target. -/
theorem parseItem_bare {item : Text} (nonempty : item ≠ []) (free : '=' ∉ item) :
    parseItem item =
      match Level.parse item with
      | some level => some { target := [], level }
      | none => some { target := item, level := .trace } := by
  have visible : ¬ item.isEmpty = true := by simpa using nonempty
  have single : item.splitOn '=' = [item] := List.splitOn_eq_singleton free
  cases parsed : Level.parse item with
  | none => simp only [parseItem, if_neg visible, single, parsed]
  | some level => simp only [parseItem, if_neg visible, single, parsed]

/-- An item with one `=` has a target and a level. -/
theorem parseItem_equals {name level : Text} (nameFree : '=' ∉ name) (levelFree : '=' ∉ level) :
    parseItem (name ++ '=' :: level) =
      if (Text.trim level).isEmpty then
        if name.isEmpty then none else some { target := name, level := .trace }
      else (Level.parse (Text.trim level)).map fun level => { target := name, level } := by
  rw [parseItem, if_neg (by simp), splitOn_equals nameFree levelFree]
  dsimp only
  split_ifs
  · rfl
  · rfl
  · cases Level.parse (Text.trim level) <;> rfl

/-- An item with more than one `=` is skipped. -/
theorem parseItem_many {name level : Text} (nameFree : '=' ∉ name) (levelFree : '=' ∉ level)
    (rest : Text) : parseItem (name ++ '=' :: level ++ '=' :: rest) = none := by
  obtain ⟨first, others, split⟩ := List.exists_cons_of_ne_nil (List.splitOn_ne_nil '=' rest)
  have pieces : (name ++ '=' :: level ++ '=' :: rest).splitOn '=' =
      name :: level :: first :: others := by
    rw [List.append_assoc, List.cons_append, List.splitOn_append_cons_self_of_not_mem nameFree,
      List.splitOn_append_cons_self_of_not_mem levelFree, split]
  rw [parseItem, if_neg (by simp), pieces]

/-! ## What decisions depend on -/

/-- Whether a directive has a target. -/
def Directive.named (directive : Directive) : Bool :=
  !directive.target.isEmpty

namespace TargetFilter

/-- Whether the filter contains no directives at all. -/
def isEmpty (filter : TargetFilter) : Bool :=
  filter.directives.isEmpty

/-- The filters decide alike. -/
structure Agree (first second : TargetFilter) : Prop where
  effectiveLevel : ∀ target base,
    first.effectiveLevel target base = second.effectiveLevel target base
  enabled : ∀ target level base,
    first.enabled target level base = second.enabled target level base

theorem agree_of_effectiveLevel {first second : TargetFilter}
    (same : ∀ target base, first.effectiveLevel target base = second.effectiveLevel target base) :
    Agree first second where
  effectiveLevel := same
  enabled target level base := enabled_congr (same target base) level

/-- The filters decide alike for every module. -/
structure AgreeOnModules (first second : TargetFilter) : Prop where
  effectiveLevel : ∀ (path : ModulePath) base,
    first.effectiveLevel path.text base = second.effectiveLevel path.text base
  enabled : ∀ (path : ModulePath) level base,
    first.enabled path.text level base = second.enabled path.text level base

theorem agreeOnModules_of_effectiveLevel {first second : TargetFilter}
    (same : ∀ (path : ModulePath) base,
      first.effectiveLevel path.text base = second.effectiveLevel path.text base) :
    AgreeOnModules first second where
  effectiveLevel := same
  enabled path level base := enabled_congr (same path base) level

theorem foldl_consider_named (target : Text) (directives : List Directive)
    (best : Option (Nat × Level)) :
    (directives.filter Directive.named).foldl (consider target) best =
      directives.foldl (consider target) best := by
  induction directives generalizing best with
  | nil => rfl
  | cons directive directives ih =>
      cases named : directive.named with
      | true => rw [List.filter_cons_of_pos named, List.foldl_cons, List.foldl_cons, ih]
      | false =>
          have nameless : directive.target.isEmpty = true := by
            simpa [Directive.named] using named
          rw [List.filter_cons_of_neg (by simp [named]), List.foldl_cons, ih, consider,
            if_pos nameless]

theorem agree_of_named {first second : TargetFilter}
    (named : first.directives.filter Directive.named = second.directives.filter Directive.named)
    (global : first.globalDefault = second.globalDefault) : Agree first second := by
  apply agree_of_effectiveLevel
  intro target base
  rw [TargetFilter.effectiveLevel, TargetFilter.effectiveLevel, defaultLevel, defaultLevel,
    ← foldl_consider_named, named, foldl_consider_named, global]

theorem isEmpty_iff (filter : TargetFilter) :
    filter.isEmpty = true ↔
      filter.directives.filter Directive.named = [] ∧ filter.globalDefault = none := by
  rw [isEmpty, List.isEmpty_iff, globalDefault, Option.map_eq_none_iff, List.find?_eq_none,
    List.filter_eq_nil_iff]
  constructor
  · intro empty
    rw [empty]
    exact ⟨fun _ member => absurd member List.not_mem_nil,
      fun _ member => absurd member List.not_mem_nil⟩
  · rintro ⟨nameless, named⟩
    rw [List.eq_nil_iff_forall_not_mem]
    intro directive member
    have target := nameless directive member
    have other := named directive member
    simp [Directive.named] at target other
    contradiction

theorem named_parse (spec : Text) :
    (parse spec).directives.filter Directive.named =
      ((recognised spec).filter Directive.named).foldl (Keyed.upsert Directive.target) [] := by
  rw [parse_directives]
  apply Keyed.filter_foldl_upsert
  intro first second same
  rw [Directive.named, Directive.named, same]

theorem globalDefault_parse (spec : Text) :
    (parse spec).globalDefault = lastLevel (recognised spec) [] := by
  rw [lastLevel_recognised]
  rfl

end TargetFilter

end XosLog.Filter
