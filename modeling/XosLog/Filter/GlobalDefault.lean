import XosLog.Filter.Items

/-!
# Where the global default comes from

The parser keeps the global default under the empty target.  An item `=level`
has an empty target too, so it passes for a bare level unless a later item sets
the default again.
-/

namespace XosLog.Filter

/-- The level that an item sets by a stray `=` in front of it. -/
def strayLevel : Text → Option Level
  | '=' :: level => Level.parse level
  | _ => none

/-- The level that an item gives to the empty target. -/
def namelessLevel (item : Text) : Option Level :=
  (Level.parse item).or (strayLevel item)

/-- The level of the last item that is a bare level. -/
def lastBareLevel (spec : Text) : Option Level :=
  ((items spec).filterMap Level.parse).getLast?

/-- The level of the last item that is a level, bare or behind a stray `=`. -/
def lastNamelessLevel (spec : Text) : Option Level :=
  ((items spec).filterMap namelessLevel).getLast?

/-- An item with a bad level name or a stray `=`: an empty target, or more than
one `=`. -/
def isStray (item : Text) : Bool :=
  match item.splitOn '=' with
  | [_] => false
  | [part0, rest] =>
      part0.isEmpty || (!(Text.trim rest).isEmpty && (Level.parse (Text.trim rest)).isNone)
  | _ => true

/-- The spec without its stray items. -/
def withoutStrays (spec : Text) : Text :=
  [','].intercalate ((items spec).filter fun item => !isStray item)

/-! ## The items of a spec -/

theorem mods_eq_self {spec : Text} (free : '/' ∉ spec) : mods spec = spec := by
  rw [mods, List.splitOn_eq_singleton free]
  rfl

/-- The items contain neither commas nor slashes, and are trimmed. -/
theorem items_clean {spec item : Text} (member : item ∈ items spec) :
    ',' ∉ item ∧ '/' ∉ item ∧ Text.trim item = item := by
  obtain ⟨piece, inList, rfl⟩ := List.mem_map.mp member
  obtain ⟨first, others, split⟩ := Text.splitOn_ne_nil '/' spec
  have isFirst : mods spec ∈ spec.splitOn '/' := by
    rw [mods, split]
    exact List.mem_cons_self
  refine ⟨?_, ?_, Text.trim_trim piece⟩
  · intro comma
    exact (Text.mem_splitOn inList (Text.mem_of_mem_trim comma)).2 rfl
  · intro slash
    have inMods := (Text.mem_splitOn inList (Text.mem_of_mem_trim slash)).1
    exact (Text.mem_splitOn isFirst inMods).2 rfl

/-- Clean items are recognised after they are joined by commas. -/
theorem recognised_intercalate {kept : List Text}
    (clean : ∀ item ∈ kept, ',' ∉ item ∧ '/' ∉ item ∧ Text.trim item = item) :
    recognised ([','].intercalate kept) = kept.filterMap parseItem := by
  have slashFree : '/' ∉ [','].intercalate kept :=
    Text.not_mem_intercalate (by decide) fun item member => (clean item member).2.1
  cases kept with
  | nil => rfl
  | cons item others =>
      have trimmed : (item :: others).map Text.trim = item :: others := by
        rw [List.map_congr_left fun item member => (clean item member).2.2]
        exact List.map_id _
      rw [recognised_eq, items, mods_eq_self slashFree,
        List.splitOn_intercalate ',' (fun item member => (clean item member).1)
          (List.cons_ne_nil item others), trimmed]

theorem recognised_withoutStrays (spec : Text) :
    recognised (withoutStrays spec) =
      ((items spec).filter fun item => !isStray item).filterMap parseItem :=
  recognised_intercalate fun _ member => items_clean (List.mem_of_mem_filter member)

/-! ## What an item does to the empty target -/

theorem parse_of_equals {item : Text} (equals : '=' ∈ item) : Level.parse item = none := by
  cases named : Level.parse item with
  | none => rfl
  | some level => exact absurd equals (equals_not_mem_of_parse named)

theorem strayLevel_of_ne {c : Char} (different : c ≠ '=') (rest : Text) :
    strayLevel (c :: rest) = none := by
  unfold strayLevel
  split
  · rename_i same
    exact absurd (List.cons.inj same).1 different
  · rfl

theorem strayLevel_append {name : Text} (nonempty : name ≠ []) (nameFree : '=' ∉ name)
    (rest : Text) : strayLevel (name ++ rest) = none := by
  obtain ⟨c, tail, rfl⟩ := List.exists_cons_of_ne_nil nonempty
  apply strayLevel_of_ne
  rintro rfl
  exact nameFree List.mem_cons_self

/-- The directives without a target are those of the levels, bare or behind a
stray `=`. -/
theorem parseItem_nameless (item : Text) :
    ((parseItem item).filter fun directive => directive.target = []).map Directive.level =
      namelessLevel item := by
  rw [namelessLevel]
  rcases equals_cases item with free | ⟨name, level, rfl, nameFree, levelFree⟩ |
    ⟨name, level, rest, rfl, nameFree, levelFree⟩
  · cases item with
    | nil => rfl
    | cons c rest =>
        have noEquals : c ≠ '=' := fun same => free (same ▸ List.mem_cons_self)
        rw [parseItem_bare (List.cons_ne_nil c rest) free, strayLevel_of_ne noEquals]
        cases Level.parse (c :: rest) <;> simp
  · have unnamed : Level.parse (name ++ '=' :: level) = none :=
      parse_of_equals (List.mem_append_right _ List.mem_cons_self)
    rw [parseItem_equals nameFree levelFree, parse_trim, unnamed, Option.none_or]
    cases name with
    | nil =>
        rw [List.nil_append, strayLevel]
        split
        · rename_i blank
          rw [← parse_trim level, List.isEmpty_iff.mp blank]
          rfl
        · cases Level.parse level <;> simp
    | cons c rest =>
        rw [strayLevel_append (List.cons_ne_nil c rest) nameFree]
        split
        · simp
        · cases Level.parse level <;> simp
  · have unnamed : Level.parse (name ++ '=' :: level ++ '=' :: rest) = none :=
      parse_of_equals (by simp)
    rw [parseItem_many nameFree levelFree, unnamed, Option.none_or]
    cases name with
    | nil =>
        have more : Level.parse (level ++ '=' :: rest) = none := parse_of_equals (by simp)
        simp [strayLevel, more]
    | cons c tail =>
        rw [List.append_assoc, strayLevel_append (List.cons_ne_nil c tail) nameFree]
        rfl

/-- A stray item has an `=`, and whatever it sets is the empty target. -/
theorem of_isStray {item : Text} (stray : isStray item = true) :
    '=' ∈ item ∧ (parseItem item).filter Directive.named = none := by
  rcases equals_cases item with free | ⟨name, level, rfl, nameFree, levelFree⟩ |
    ⟨name, level, rest, rfl, nameFree, levelFree⟩
  · rw [isStray, List.splitOn_eq_singleton free] at stray
    contradiction
  · refine ⟨List.mem_append_right _ List.mem_cons_self, ?_⟩
    rw [isStray, splitOn_equals nameFree levelFree] at stray
    rw [parseItem_equals nameFree levelFree]
    dsimp only at stray
    cases name with
    | nil =>
        split
        · rfl
        · cases Level.parse (Text.trim level) <;> simp [Directive.named]
    | cons c rest =>
        simp only [List.isEmpty_cons, Bool.false_or, Bool.and_eq_true, Bool.not_eq_true',
          Option.isNone_iff_eq_none] at stray
        rw [if_neg (by simp [stray.1]), stray.2]
        rfl
  · refine ⟨by simp, ?_⟩
    rw [parseItem_many nameFree levelFree]
    rfl

/-- Only a stray item sets the default by its `=`. -/
theorem namelessLevel_of_not_isStray {item : Text} (tidy : isStray item = false) :
    namelessLevel item = Level.parse item := by
  cases item with
  | nil => rfl
  | cons c rest =>
      by_cases equals : c = '='
      · subst equals
        have unset : Level.parse rest = none := by
          cases named : Level.parse rest with
          | none => rfl
          | some level =>
              have one := splitOn_equals List.not_mem_nil (equals_not_mem_of_parse named)
              rw [List.nil_append] at one
              rw [isStray, one] at tidy
              contradiction
        rw [namelessLevel, strayLevel, unset, Option.or_none]
      · rw [namelessLevel, strayLevel_of_ne equals, Option.or_none]

/-! ## The global default -/

theorem lastLevel_filterMap_parseItem (kept : List Text) :
    lastLevel (kept.filterMap parseItem) [] = (kept.filterMap namelessLevel).getLast? := by
  have nameless : ((kept.filterMap parseItem).filter fun directive => directive.target = []).map
      Directive.level = kept.filterMap namelessLevel := by
    rw [List.filter_filterMap, List.map_filterMap]
    exact List.filterMap_congr fun item _ => parseItem_nameless item
  rw [lastLevel, ← List.getLast?_map, nameless]

theorem globalDefault_eq_lastNamelessLevel (spec : Text) :
    (TargetFilter.parse spec).globalDefault = lastNamelessLevel spec := by
  rw [TargetFilter.globalDefault_parse, recognised_eq, lastLevel_filterMap_parseItem]
  rfl

/-- Without the stray items only the bare levels set the default. -/
theorem globalDefault_withoutStrays (spec : Text) :
    (TargetFilter.parse (withoutStrays spec)).globalDefault = lastBareLevel spec := by
  have bare : (((items spec).filter fun item => !isStray item).filterMap namelessLevel) =
      (items spec).filterMap Level.parse := by
    rw [List.filterMap_filter]
    apply List.filterMap_congr
    intro item _
    cases stray : isStray item with
    | true => simp [parse_of_equals (of_isStray stray).1]
    | false => simp [namelessLevel_of_not_isStray stray]
  rw [TargetFilter.globalDefault_parse, recognised_withoutStrays, lastLevel_filterMap_parseItem,
    bare, lastBareLevel]

theorem named_withoutStrays (spec : Text) :
    (TargetFilter.parse (withoutStrays spec)).directives.filter Directive.named =
      (TargetFilter.parse spec).directives.filter Directive.named := by
  rw [TargetFilter.named_parse, TargetFilter.named_parse, recognised_withoutStrays, recognised_eq,
    List.filter_filterMap, List.filter_filterMap, List.filterMap_filter]
  congr 1
  apply List.filterMap_congr
  intro item _
  cases stray : isStray item with
  | true => simp [(of_isStray stray).2]
  | false => simp

/-- The global default is the last bare level, and stray items are as if they
were absent. -/
structure OnlyBareLevels (spec : Text) : Prop where
  global : (TargetFilter.parse spec).globalDefault = lastBareLevel spec
  absent : (TargetFilter.parse spec).globalDefault =
      (TargetFilter.parse (withoutStrays spec)).globalDefault ∧
    (TargetFilter.parse spec).isEmpty = (TargetFilter.parse (withoutStrays spec)).isEmpty ∧
    TargetFilter.Agree (TargetFilter.parse spec) (TargetFilter.parse (withoutStrays spec))

/-- The global default comes only from bare levels exactly when the last item
that is a level, bare or behind a stray `=`, names the last bare level. -/
theorem onlyBareLevels_iff (spec : Text) :
    OnlyBareLevels spec ↔ lastNamelessLevel spec = lastBareLevel spec := by
  constructor
  · intro only
    rw [← globalDefault_eq_lastNamelessLevel, only.global]
  · intro same
    have named := (named_withoutStrays spec).symm
    have global : (TargetFilter.parse spec).globalDefault = lastBareLevel spec := by
      rw [globalDefault_eq_lastNamelessLevel, same]
    have alike := global.trans (globalDefault_withoutStrays spec).symm
    refine ⟨global, alike, ?_, TargetFilter.agree_of_named named alike⟩
    rw [Bool.eq_iff_iff, TargetFilter.isEmpty_iff, TargetFilter.isEmpty_iff, named, alike]

/-- A stray `=` in front of a level sets the global default. -/
theorem stray_sets_global_default :
    (TargetFilter.parse "hyper=warn,=debug".toList).globalDefault = some .debug ∧
      lastBareLevel "hyper=warn,=debug".toList = none ∧
      ¬ OnlyBareLevels "hyper=warn,=debug".toList := by
  have leaked : (TargetFilter.parse "hyper=warn,=debug".toList).globalDefault = some .debug := by
    decide
  have noBare : lastBareLevel "hyper=warn,=debug".toList = none := by decide
  refine ⟨leaked, noBare, ?_⟩
  intro only
  have global := only.global
  rw [leaked, noBare] at global
  contradiction

end XosLog.Filter
