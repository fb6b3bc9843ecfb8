import Mathlib.Data.List.Sigma
import XosLog.Filter.Redundancy

/-!
# White space is insignificant exactly when assignments are redundant

Wide gaps hide all directives with a gap, and one gap at a time is closed again.
If no respacing moves a module, every assigned level is the one that the modules
its target names have without it.
-/

namespace XosLog.Filter

open Text (Blank)

/-! ## Entries at positions -/

/-- Entries with the gaps chosen for their positions. -/
def placed (gaps : Nat → Text) (found : List (Entry × Nat)) : List (Entry × Text) :=
  found.map fun (entry, index) => (entry, gaps index)

theorem recognised_placed {gaps : Nat → Text} (isBlank : ∀ index, Blank (gaps index))
    (spec : Text) :
    recognised (withGaps gaps spec) = directivesOf (placed gaps (indexed spec)) := by
  rw [recognised_withGaps isBlank, directivesOf, placed, List.map_map]
  rfl

theorem map_indexed (spec : Text) : (indexed spec).map Prod.fst = entries spec := by
  have raws : (rawItems spec).zipIdx.map Prod.fst = rawItems spec := List.zipIdx_map_fst 0 _
  conv_rhs => rw [entries, ← raws]
  rw [indexed, List.map_filterMap, List.filterMap_map]
  apply List.filterMap_congr
  rintro ⟨raw, index⟩ _
  dsimp only [Function.comp]
  cases Entry.read (tokens raw) <;> rfl

/-- No position is used twice. -/
theorem nodup_indexed (spec : Text) : ((indexed spec).map Prod.snd).Nodup := by
  have positions := List.nodup_zipIdx_map_snd (rawItems spec)
  rw [List.Nodup, List.pairwise_map] at positions ⊢
  rw [indexed, List.pairwise_filterMap]
  apply positions.imp
  rintro ⟨raw, index⟩ ⟨other, position⟩ different first isFirst second isSecond
  obtain ⟨_, -, rfl⟩ := Option.map_eq_some_iff.mp isFirst
  obtain ⟨_, -, rfl⟩ := Option.map_eq_some_iff.mp isSecond
  exact different

/-- The entries leave the choice of the gaps free: no choice moves a module. -/
def Unmoved (found : List (Entry × Nat)) : Prop :=
  ∀ first second : Nat → Text, (∀ index, Blank (first index)) → (∀ index, Blank (second index)) →
    ∀ target base, IsModule target → ∀ one other : Level,
      Resolves (directivesOf (placed first found)) target base one →
        Resolves (directivesOf (placed second found)) target base other → one = other

theorem unmoved_of_agree {spec : Text}
    (agree : ∀ other, Respaced spec other →
      TargetFilter.AgreeOnModules (TargetFilter.parse spec) (TargetFilter.parse other)) :
    Unmoved (indexed spec) := by
  rintro first second firstBlank secondBlank _ base ⟨path, rfl⟩ one other firstResolves
    secondResolves
  rw [← recognised_placed firstBlank] at firstResolves
  rw [← recognised_placed secondBlank] at secondResolves
  rw [← effectiveLevel_of_resolves firstResolves, ← effectiveLevel_of_resolves secondResolves,
    ← (agree _ (respaced_withGaps firstBlank spec)).effectiveLevel path,
    ← (agree _ (respaced_withGaps secondBlank spec)).effectiveLevel path]

/-! ## Wide gaps -/

/-- Gaps that are longer than a width, and all different. -/
def wide (width index : Nat) : Text :=
  List.replicate (width + 1 + index) ' '

/-- The same gaps, but for one that is closed. -/
def closed (width position : Nat) : Nat → Text :=
  Function.update (wide width) position []

/-- A closed gap leaves the target as it is. -/
theorem directive_closed (width position : Nat) (name : Text) (level : Level) :
    (Entry.assigned name level).directive (closed width position position) = ⟨name, level⟩ := by
  have shut : closed width position position = [] := Function.update_self position _ _
  rw [Entry.directive, shut, List.append_nil]

theorem blank_wide (width index : Nat) : Blank (wide width index) :=
  Blank.replicate _

theorem blank_closed (width position index : Nat) : Blank (closed width position index) := by
  unfold closed
  rw [Function.update_apply]
  split
  · exact Text.Blank.nil
  · exact blank_wide width index

theorem wide_ne_nil (width index : Nat) : wide width index ≠ [] := by
  rw [wide, Ne, List.replicate_eq_nil_iff]
  omega

theorem wide_inj {width first second : Nat} (same : wide width first = wide width second) :
    first = second := by
  have lengths := congrArg List.length same
  rw [wide, wide, List.length_replicate, List.length_replicate] at lengths
  omega

/-- A directive with a target is bare or ends with its gap. -/
theorem cases_of_mem_placed {gaps : Nat → Text} {found : List (Entry × Nat)}
    {directive : Directive} (member : directive ∈ directivesOf (placed gaps found))
    (named : directive.target ≠ []) :
    directive.target ∈ bares (found.map Prod.fst) ∧ directive.level = .trace ∨
      ∃ name level index, (.assigned name level, index) ∈ found ∧
        directive = ⟨name ++ gaps index, level⟩ := by
  rw [directivesOf, placed, List.map_map] at member
  obtain ⟨⟨entry, index⟩, inFound, rfl⟩ := List.mem_map.mp member
  cases entry with
  | default level => exact absurd rfl named
  | bare target =>
      exact Or.inl ⟨mem_bares.mpr (List.mem_map.mpr ⟨_, inFound, rfl⟩), rfl⟩
  | assigned name level => exact Or.inr ⟨name, level, index, inFound, rfl⟩

theorem lastLevel_of_forall {directives : List Directive} {name : Text} {level : Level}
    (member : ⟨name, level⟩ ∈ directives)
    (all : ∀ directive ∈ directives, directive.target = name → directive.level = level) :
    lastLevel directives name = some level := by
  have listed : ⟨name, level⟩ ∈ directives.filter fun directive => directive.target = name :=
    List.mem_filter.mpr ⟨member, decide_eq_true rfl⟩
  obtain ⟨last, isLast⟩ : ∃ last,
      (directives.filter fun directive => directive.target = name).getLast? = some last :=
    ⟨_, List.getLast?_eq_some_getLast (List.ne_nil_of_mem listed)⟩
  obtain ⟨inside, named⟩ := List.mem_filter.mp (List.mem_of_getLast? isLast)
  rw [lastLevel, isLast, Option.map_some, all last inside (of_decide_eq_true named)]

/-- A target that is the name of a directive is resolved by that name. -/
theorem resolves_self {directives : List Directive} {target : Text} {level : Level}
    (base : Level) (named : target ≠ []) (found : lastLevel directives target = some level) :
    Resolves directives target base level := by
  apply Resolves.matched named _ found
  · intro directive _ matched
    rcases (moduleMatches_iff _ target).mp matched.2 with same | ⟨rest, same⟩
    · exact same ▸ List.prefix_rfl
    · exact same ▸ List.prefix_append _ _
  · exact (moduleMatches_iff target target).mpr (Or.inl rfl)

theorem exists_resolves {gaps : Nat → Text} (isBlank : ∀ index, Blank (gaps index))
    (spec target : Text) (base : Level) :
    ∃ level, Resolves (directivesOf (placed gaps (indexed spec))) target base level := by
  rw [← recognised_placed isBlank]
  exact ⟨_, resolves_parse (withGaps gaps spec) target base⟩

/-! ## What wide gaps reveal -/

section

variable {spec name : Text} {level : Level} {index : Nat}

theorem tidy_of_mem_indexed {entry : Entry} (member : (entry, index) ∈ indexed spec) :
    entry.Tidy := by
  have inEntries : entry ∈ entries spec := by
    rw [← map_indexed]
    exact List.mem_map.mpr ⟨_, member, rfl⟩
  rw [← map_gapped] at inEntries
  obtain ⟨⟨_, gap⟩, inGapped, rfl⟩ := List.mem_map.mp inEntries
  exact (spaced_gapped spec).tidy _ gap inGapped

theorem bare_tidy {bare : Text} (isBare : bare ∈ bares (entries spec)) :
    bare ≠ [] ∧ Text.trimEnd bare = bare := by
  rw [← map_gapped] at isBare
  exact tidy_of_mem_bares (spaced_gapped spec) isBare

theorem placed_entries (gaps : Nat → Text) (spec : Text) :
    (placed gaps (indexed spec)).map Prod.fst = entries spec := by
  rw [placed, List.map_map, ← map_indexed]
  rfl

theorem mem_placed_of_bare (gaps : Nat → Text) {bare : Text}
    (isBare : bare ∈ bares (entries spec)) :
    ⟨bare, .trace⟩ ∈ directivesOf (placed gaps (indexed spec)) := by
  rw [← placed_entries gaps] at isBare
  exact mem_directivesOf_of_bare isBare

theorem lastLevel_placed {gaps : Nat → Text} (isBlank : ∀ index, Blank (gaps index)) :
    lastLevel (directivesOf (placed gaps (indexed spec))) [] = lastDefault (entries spec) := by
  have spaced : Spaced (placed gaps (indexed spec)) := by
    constructor
    · intro entry gap member
      obtain ⟨_, -, same⟩ := List.mem_map.mp member
      obtain ⟨-, rfl⟩ := Prod.mk.inj same
      exact isBlank _
    · intro entry gap member
      obtain ⟨⟨found, index⟩, inIndexed, same⟩ := List.mem_map.mp member
      obtain ⟨rfl, -⟩ := Prod.mk.inj same
      exact tidy_of_mem_indexed inIndexed
  rw [lastLevel_directivesOf spaced, placed_entries]

/-- A position holds one assignment. -/
theorem eq_of_position {other : Text} {otherLevel : Level}
    (member : (.assigned name level, index) ∈ indexed spec)
    (otherMember : (.assigned other otherLevel, index) ∈ indexed spec) :
    other = name ∧ otherLevel = level := by
  have equal := List.inj_on_of_nodup_map (nodup_indexed spec) otherMember member rfl
  exact Entry.assigned.inj (Prod.mk.inj equal).1

/-- A target with a wide gap is the target of one assignment only. -/
theorem eq_of_wide {other : Text} {otherLevel : Level} {position width : Nat}
    (member : (.assigned name level, index) ∈ indexed spec)
    (otherMember : (.assigned other otherLevel, position) ∈ indexed spec)
    (same : other ++ wide width position = name ++ wide width index) :
    other = name ∧ otherLevel = level ∧ position = index := by
  have tidy := tidy_of_mem_indexed member
  have otherTidy := tidy_of_mem_indexed otherMember
  obtain ⟨rfl, gaps⟩ := gap_inj otherTidy.2 tidy.2 (blank_wide width position)
    (blank_wide width index) same
  obtain rfl := wide_inj gaps
  exact ⟨rfl, (eq_of_position member otherMember).2, rfl⟩

/-- A bare target does not end with a gap. -/
theorem bare_ne_wide {bare : Text} {width : Nat}
    (member : (.assigned name level, index) ∈ indexed spec) (isBare : bare ∈ bares (entries spec)) :
    bare ≠ name ++ wide width index := by
  intro same
  obtain ⟨-, noGap⟩ := gap_inj (bare_tidy isBare).2 (tidy_of_mem_indexed member).2
    Text.Blank.nil (blank_wide width index) ((List.append_nil bare).trans same)
  exact absurd noGap.symm (wide_ne_nil width index)

theorem mem_directivesOf_placed (gaps : Nat → Text) {entry : Entry}
    (member : (entry, index) ∈ indexed spec) :
    entry.directive (gaps index) ∈ directivesOf (placed gaps (indexed spec)) := by
  rw [directivesOf, placed, List.map_map]
  exact List.mem_map.mpr ⟨_, member, rfl⟩

/-- With its gap an assigned target is found at its own level. -/
theorem resolves_wide (width : Nat) (base : Level)
    (member : (.assigned name level, index) ∈ indexed spec) :
    Resolves (directivesOf (placed (wide width) (indexed spec))) (name ++ wide width index) base
      level := by
  have named : name ++ wide width index ≠ [] := by
    rw [Ne, List.append_eq_nil_iff]
    exact fun empty => wide_ne_nil width index empty.2
  apply resolves_self base named
  apply lastLevel_of_forall
  · exact mem_directivesOf_placed (wide width) member
  · intro directive isDirective same
    rcases cases_of_mem_placed isDirective (same ▸ named) with
      ⟨isBare, -⟩ | ⟨other, otherLevel, position, otherMember, rfl⟩
    · rw [map_indexed] at isBare
      exact absurd same (bare_ne_wide member isBare)
    · exact (eq_of_wide member otherMember same).2.1

theorem isBelow_length {below upper : Text} (isBelow' : isBelow below upper = true) :
    upper.length + 2 ≤ below.length := by
  obtain ⟨rest, rfl⟩ := isBelow_iff.mp isBelow'
  simp

/-- The gap of an assignment, when only one is closed. -/
theorem closed_cases (width index position : Nat) :
    position = index ∧ closed width index position = [] ∨
      position ≠ index ∧ closed width index position = wide width position := by
  by_cases same : position = index
  · subst position
    exact Or.inl ⟨rfl, Function.update_self index _ _⟩
  · exact Or.inr ⟨same, Function.update_of_ne same _ _⟩

/-- Without its gap, an assignment leaves the target with the gap to the bare
targets above it and to the default. -/
theorem Resolves.eq_inherited {base found : Level}
    (member : (.assigned name level, index) ∈ indexed spec)
    (resolves : Resolves (directivesOf (placed (closed name.length index) (indexed spec)))
      (name ++ wide name.length index) base found) :
    found = if (bares (entries spec)).any (isBelow name) = true then .trace
      else (lastDefault (entries spec)).getD base := by
  have tidy := tidy_of_mem_indexed member
  have blank := blank_wide name.length index
  cases resolves with
  | unmatched none =>
      have notBelow : ¬ (bares (entries spec)).any (isBelow name) = true := by
        rw [List.any_eq_true]
        rintro ⟨bare, isBare, below⟩
        rw [← isBelow_gap blank, isBelow_iff] at below
        exact none _ (mem_placed_of_bare _ isBare)
          ⟨(bare_tidy isBare).1, (moduleMatches_iff bare _).mpr (Or.inr below)⟩
      rw [if_neg notBelow, lastLevel_placed (blank_closed _ _)]
  | matched named matching isLast longest =>
      have inside := mem_of_lastLevel isLast
      rw [moduleMatches_iff, ← isBelow_iff, isBelow_gap blank] at matching
      rcases cases_of_mem_placed inside named with
        ⟨isBare, rfl⟩ | ⟨other, otherLevel, position, otherMember, same⟩
      · rw [map_indexed] at isBare
        rcases matching with same | below
        · exact absurd same.symm (bare_ne_wide member isBare)
        · rw [if_pos (List.any_eq_true.mpr ⟨_, isBare, below⟩)]
      · obtain ⟨rfl, rfl⟩ := Directive.mk.inj same
        rcases closed_cases name.length index position with
          ⟨rfl, shut⟩ | ⟨different, spaced⟩
        · obtain ⟨rfl, -⟩ := eq_of_position member otherMember
          rw [shut, List.append_nil] at matching
          rcases matching with same | below
          · exact absurd (List.append_right_eq_self.mp same) (wide_ne_nil _ _)
          · have length := isBelow_length below
            omega
        · rw [spaced] at matching
          rcases matching with same | below
          · exact absurd (eq_of_wide member otherMember same.symm).2.2 different
          · have length := isBelow_length below
            rw [List.length_append, wide, List.length_replicate] at length
            omega

/-! ## Unmoved modules have redundant assignments -/

theorem inherited_of_unmoved (unmoved : Unmoved (indexed spec))
    (member : (.assigned name level, index) ∈ indexed spec) {gap : Text} (blank : Blank gap)
    (isModule : IsModule (name ++ gap)) :
    some level = if (bares (entries spec)).any (isBelow name) = true then some .trace
      else lastDefault (entries spec) := by
  have spacedModule : IsModule (name ++ wide name.length index) :=
    isModule_gap isModule blank (blank_wide _ _) (wide_ne_nil _ _)
  have each (base : Level) : level = if (bares (entries spec)).any (isBelow name) = true then .trace
      else (lastDefault (entries spec)).getD base := by
    obtain ⟨found, resolves⟩ := exists_resolves (blank_closed name.length index) spec
      (name ++ wide name.length index) base
    have same := unmoved _ _ (blank_wide name.length) (blank_closed name.length index) _ base
      spacedModule _ _ (resolves_wide name.length base member) resolves
    exact same.trans (resolves.eq_inherited member)
  have atTrace := each .trace
  have atOff := each .off
  split at atTrace
  · rename_i above
    rw [if_pos above, atTrace]
  · rename_i alone
    rw [if_neg alone] at atOff ⊢
    cases default : lastDefault (entries spec) with
    | some found =>
        rw [default] at atTrace
        rw [atTrace]
        rfl
    | none =>
        rw [default] at atTrace atOff
        exact absurd (atTrace.symm.trans atOff) (by decide)

/-- With wide gaps a bare target is at trace. -/
theorem resolves_bare (width : Nat) (base : Level) {bare : Text}
    (isBare : bare ∈ bares (entries spec)) :
    Resolves (directivesOf (placed (wide width) (indexed spec))) bare base .trace := by
  apply resolves_self base (bare_tidy isBare).1
  apply lastLevel_of_forall (mem_placed_of_bare _ isBare)
  intro directive isDirective same
  rcases cases_of_mem_placed isDirective (same ▸ (bare_tidy isBare).1) with
    ⟨-, atTrace⟩ | ⟨other, otherLevel, position, otherMember, rfl⟩
  · exact atTrace
  · exact absurd same.symm (bare_ne_wide otherMember isBare)

theorem listed_of_unmoved (unmoved : Unmoved (indexed spec)) {front back : List (Entry × Nat)}
    (split : indexed spec = front ++ (.assigned name level, index) :: back)
    (isModule : IsModule name) (isBare : name ∈ bares (entries spec)) :
    level = .trace ∨ name ∈ bares (back.map Prod.fst) := by
  by_cases later : name ∈ bares (back.map Prod.fst)
  · exact Or.inr later
  · left
    have member : (.assigned name level, index) ∈ indexed spec := by
      rw [split]
      simp
    have isLast : lastLevel (directivesOf (placed (closed 0 index) (indexed spec))) name =
        some level := by
      rw [lastLevel_eq_some_iff]
      refine ⟨directivesOf (placed (closed 0 index) front),
        directivesOf (placed (closed 0 index) back), ?_, ?_⟩
      · rw [split, ← directive_closed 0 index, directivesOf, placed, List.map_append,
          List.map_append]
        rfl
      · intro directive isDirective same
        rcases cases_of_mem_placed isDirective (same ▸ (bare_tidy isBare).1) with
          ⟨again, -⟩ | ⟨other, otherLevel, position, inBack, rfl⟩
        · exact later (same ▸ again)
        · have otherMember : (.assigned other otherLevel, position) ∈ indexed spec := by
            rw [split]
            exact List.mem_append_right front (List.mem_cons_of_mem _ inBack)
          rcases closed_cases 0 index position with ⟨rfl, -⟩ | ⟨-, spaced⟩
          · have positions := nodup_indexed spec
            rw [split, List.map_append] at positions
            exact (List.nodup_cons.mp positions.of_append_right).1
              (List.mem_map.mpr ⟨_, inBack, rfl⟩)
          · rw [spaced] at same
            exact bare_ne_wide otherMember isBare same.symm
    exact unmoved _ _ (blank_closed 0 index) (blank_wide 0) name .trace isModule _ _
      (resolves_self .trace (bare_tidy isBare).1 isLast) (resolves_bare 0 .trace isBare)

theorem redundant_of_unmoved (unmoved : Unmoved (indexed spec)) : Redundant (entries spec) := by
  intro before name level after split
  rw [← map_indexed] at split
  obtain ⟨front, rest, cut, -, shape⟩ := List.map_eq_append_iff.mp split
  obtain ⟨⟨entry, index⟩, back, rfl, same, rfl⟩ := List.map_eq_cons_iff.mp shape
  obtain rfl : entry = .assigned name level := same
  have member : (.assigned name level, index) ∈ indexed spec := by
    rw [cut]
    exact List.mem_append_right front List.mem_cons_self
  exact ⟨fun _ blank isModule => inherited_of_unmoved unmoved member blank isModule,
    listed_of_unmoved unmoved cut⟩

end

/-! ## White space -/

/-- The gap of an entry, if it is an assignment. -/
def assignedGap : Entry × Text → Option Text
  | (.assigned _ _, gap) => some gap
  | _ => none

/-- The gaps in front of the `=` of the assignments of a spec. -/
def assignedGaps (spec : Text) : List Text :=
  (gapped spec).filterMap assignedGap

/-- Only the gaps of assignments are seen in the directives. -/
theorem directivesOf_congr {first second : List (Entry × Text)}
    (same : first.map Prod.fst = second.map Prod.fst)
    (gaps : first.filterMap assignedGap = second.filterMap assignedGap) :
    directivesOf first = directivesOf second := by
  induction first generalizing second with
  | nil =>
      rw [List.map_nil, eq_comm, List.map_eq_nil_iff] at same
      rw [same]
  | cons head first inductionHypothesis =>
      obtain ⟨entry, gap⟩ := head
      obtain ⟨⟨other, otherGap⟩, rest, rfl, sameEntry, sameRest⟩ :=
        List.map_eq_cons_iff.mp same.symm
      obtain rfl : other = entry := sameEntry
      cases other with
      | default level | bare target =>
          have later := inductionHypothesis sameRest.symm gaps
          exact congrArg (List.cons _) later
      | assigned target level =>
          obtain ⟨rfl, others⟩ := List.cons.inj gaps
          exact congrArg (List.cons _) (inductionHypothesis sameRest.symm others)

theorem agree_of_assignedGaps {spec other : Text} (respaced : Respaced spec other)
    (gaps : assignedGaps other = assignedGaps spec) :
    TargetFilter.Agree (TargetFilter.parse spec) (TargetFilter.parse other) := by
  have same : (gapped spec).map Prod.fst = (gapped other).map Prod.fst := by
    rw [map_gapped, map_gapped, entries_respaced respaced]
  have directives : recognised spec = recognised other := by
    rw [recognised_eq_gapped, recognised_eq_gapped]
    exact directivesOf_congr same gaps.symm
  have parsed : TargetFilter.parse spec = TargetFilter.parse other := by
    rw [TargetFilter.parse, directives, TargetFilter.parse]
  exact TargetFilter.agree_of_effectiveLevel fun target base => by rw [parsed]

/-- Respacing moves no target as long as it leaves the gaps in front of `=`.
Whatever it does, it moves no module exactly when every level that is assigned
to the name of a module is redundant. -/
theorem whitespace_insignificant_iff (spec : Text) :
    (∀ other, Respaced spec other → assignedGaps other = assignedGaps spec →
      TargetFilter.Agree (TargetFilter.parse spec) (TargetFilter.parse other)) ∧
    ((∀ other, Respaced spec other →
      TargetFilter.AgreeOnModules (TargetFilter.parse spec) (TargetFilter.parse other)) ↔
        Redundant (entries spec)) := by
  constructor
  · intro other respaced gaps
    exact agree_of_assignedGaps respaced gaps
  · constructor
    · intro agree
      exact redundant_of_unmoved (unmoved_of_agree agree)
    · intro redundant other respaced
      exact agree_of_redundant redundant respaced

/-- The module `a`. -/
def shortPath : ModulePath where
  segments := ["a".toList]
  wellFormed := by
    have checked : ∀ segment ∈ ["a".toList], segment ≠ [] ∧ ':' ∉ segment := by decide
    exact checked

/-- A space in front of `=` becomes a part of the target. -/
theorem space_moves_target :
    Respaced "a=debug".toList "a =debug".toList ∧
      (TargetFilter.parse "a=debug".toList).effectiveLevel shortPath.text .info = .debug ∧
      (TargetFilter.parse "a =debug".toList).effectiveLevel shortPath.text .info = .info ∧
      ¬∀ spec other, Respaced spec other →
        TargetFilter.AgreeOnModules (TargetFilter.parse spec) (TargetFilter.parse other) := by
  have respaced : Respaced "a=debug".toList "a =debug".toList := by
    apply Relation.EqvGen.rel
    refine ⟨"a".toList, [' '], "=debug".toList, Blank.replicate 1, ?_, rfl, rfl⟩
    right
    intro c isFirst
    obtain rfl := Option.some.inj isFirst
    decide
  have tight : (TargetFilter.parse "a=debug".toList).effectiveLevel shortPath.text .info =
      .debug := by
    decide
  have loose : (TargetFilter.parse "a =debug".toList).effectiveLevel shortPath.text .info =
      .info := by
    decide
  refine ⟨respaced, tight, loose, ?_⟩
  intro agree
  have same := (agree _ _ respaced).effectiveLevel shortPath .info
  rw [tight, loose] at same
  contradiction

end XosLog.Filter
