import XosLog.Filter.Spacing

/-!
# When white space left of `=` does not matter

A directive whose target ends with a gap is found for other modules than the
same directive without the gap.  White space is insignificant in a spec exactly
when no directive whose target names a module, with or without a gap, does more
than repeat what the other items say.
-/

namespace XosLog.Filter

open Text (Blank)

/-! ## Names of modules -/

/-- A text is the target string of a module. -/
def IsModule (name : Text) : Prop :=
  ∃ path : ModulePath, path.text = name

theorem isModule_of_covers {name : Text} {path : ModulePath} (covers : Covers name path) :
    IsModule name := by
  obtain ⟨depth, _, _, rfl⟩ := covers
  exact ⟨⟨path.segments.take depth,
    fun segment member => path.wellFormed segment (List.mem_of_mem_take member)⟩, rfl⟩

/-- A colon does not stand in a gap. -/
theorem colon_not_mem_blank {gap : Text} (blank : Blank gap) : ':' ∉ gap :=
  fun member => absurd (blank ':' member) (by decide)

theorem isModule_segment {segment : Text} (isSegment : IsSegment segment) : IsModule segment :=
  ⟨⟨[segment], fun _ member => List.mem_singleton.mp member ▸ isSegment⟩, rfl⟩

theorem isModule_cons {segment name : Text} (isSegment : IsSegment segment)
    (isModule : IsModule name) (named : name ≠ []) : IsModule (segment ++ ':' :: ':' :: name) := by
  obtain ⟨⟨segments, wellFormed⟩, rfl⟩ := isModule
  cases segments with
  | nil => exact absurd rfl named
  | cons next segments =>
      refine ⟨⟨segment :: next :: segments, ?_⟩, rfl⟩
      intro s member
      rcases List.mem_cons.mp member with rfl | inside
      · exact isSegment
      · exact wellFormed s inside

/-- A gap does not begin inside a `::`. -/
theorem gap_after_colons {rest gap name : Text} (blank : Blank gap)
    (cut : "::".toList ++ rest = name ++ gap) :
    ∃ lower, name = ':' :: ':' :: lower ∧ rest = lower ++ gap := by
  rcases List.append_eq_append_iff.mp cut with ⟨lower, rfl, split⟩ | ⟨colons, split, rfl⟩
  · exact ⟨lower, rfl, split⟩
  · cases colons with
    | nil => exact ⟨[], (List.append_nil name).symm.trans split.symm, rfl⟩
    | cons c colons =>
        have inside : c ∈ "::".toList := by
          rw [split]
          simp
        have isColon : c = ':' := by simpa using inside
        exact absurd (by simp [isColon]) (colon_not_mem_blank blank)

/-- If some gap makes a text the name of a module, every other gap does. -/
theorem isModule_gap {name gap other : Text} (isModule : IsModule (name ++ gap))
    (blank : Blank gap) (otherBlank : Blank other) (nonempty : other ≠ []) :
    IsModule (name ++ other) := by
  obtain ⟨⟨segments, wellFormed⟩, same⟩ := isModule
  change join segments = name ++ gap at same
  have extended {segment : Text} (free : ':' ∉ segment) : IsModule (segment ++ other) := by
    apply isModule_segment
    refine ⟨fun empty => nonempty (List.append_eq_nil_iff.mp empty).2, ?_⟩
    rw [List.mem_append]
    exact not_or.mpr ⟨free, colon_not_mem_blank otherBlank⟩
  induction segments generalizing name with
  | nil =>
      obtain ⟨rfl, -⟩ := List.append_eq_nil_iff.mp same.symm
      exact extended List.not_mem_nil
  | cons segment segments ih =>
      have isSegment := wellFormed segment List.mem_cons_self
      cases segments with
      | nil =>
          have last : segment = name ++ gap := same
          exact extended fun member => isSegment.2 (last ▸ List.mem_append_left gap member)
      | cons next segments =>
          rw [join_cons_cons] at same
          rcases List.append_eq_append_iff.mp same with ⟨lower, rfl, cut⟩ | ⟨colons, -, cut⟩
          · obtain ⟨lower, rfl, rest⟩ := gap_after_colons blank cut
            have below := ih (fun s member => wellFormed s (List.mem_cons_of_mem _ member)) rest
            rw [List.append_assoc]
            exact isModule_cons isSegment below
              fun empty => nonempty (List.append_eq_nil_iff.mp empty).2
          · have colon : ':' ∈ gap := by
              rw [cut]
              simp
            exact absurd colon (colon_not_mem_blank blank)

/-! ## Redundant entries -/

/-- The level of an entry that sets the default. -/
def Entry.defaultLevel : Entry → Option Level
  | .default level => some level
  | _ => none

/-- The target of an entry that is written without a `=`. -/
def Entry.bareTarget : Entry → Option Text
  | .bare target => some target
  | _ => none

/-- The targets that are written without a `=`. -/
def bares (entries : List Entry) : List Text :=
  entries.filterMap Entry.bareTarget

/-- The level of the last item that is a level, bare or behind a stray `=`. -/
def lastDefault (entries : List Entry) : Option Level :=
  (entries.filterMap Entry.defaultLevel).getLast?

/-- Whether a target stands below a name in the module tree. -/
def isBelow (target name : Text) : Bool :=
  (name ++ "::".toList).isPrefixOf target

/-- An assigned level that only repeats what the other items say about the
modules that its target names, with a gap or without. -/
structure Idle (entries : List Entry) (target : Text) (level : Level) (after : List Entry) :
    Prop where
  /-- The target without it is at trace below a bare target, else at the default. -/
  inherited : ∀ gap, Blank gap → IsModule (target ++ gap) → some level =
    if (bares entries).any (isBelow target) = true then some .trace else lastDefault entries
  /-- The target is itself bare, and this is so or said again later. -/
  listed : IsModule target → target ∈ bares entries → level = .trace ∨ target ∈ bares after

/-- Every assigned level is idle. -/
def Redundant (entries : List Entry) : Prop :=
  ∀ before target level after, entries = before ++ .assigned target level :: after →
    Idle entries target level after

/-- The level of a target when only levels and bare targets count. -/
def settled (entries : List Entry) (target : Text) (base : Level) : Level :=
  if ((bares entries).any fun name => moduleMatches name target) = true then .trace
  else (lastDefault entries).getD base

/-- The tokens of an entry are trimmed, and its target is not empty. -/
def Entry.Tidy : Entry → Prop
  | .default _ => True
  | .bare target => target ≠ [] ∧ Text.trimEnd target = target
  | .assigned target _ => target ≠ [] ∧ Text.trimEnd target = target

theorem mem_bares {entries : List Entry} {target : Text} :
    target ∈ bares entries ↔ .bare target ∈ entries := by
  rw [bares, List.mem_filterMap]
  constructor
  · rintro ⟨entry, member, isBare⟩
    cases entry with
    | bare other =>
        obtain rfl := Option.some.inj isBare
        exact member
    | default _ | assigned _ _ => contradiction
  · exact fun member => ⟨_, member, rfl⟩

theorem isBelow_iff {target name : Text} :
    isBelow target name = true ↔ ∃ rest, target = name ++ ':' :: ':' :: rest := by
  rw [isBelow, List.isPrefixOf_iff_prefix]
  constructor
  · rintro ⟨rest, rfl⟩
    exact ⟨rest, by simp⟩
  · rintro ⟨rest, rfl⟩
    exact ⟨rest, by simp⟩

/-! ## Gaps -/

/-- The directives of entries with their gaps. -/
def directivesOf (found : List (Entry × Text)) : List Directive :=
  found.map fun (entry, gap) => entry.directive gap

/-- Entries with white space for their gaps, and tidy tokens. -/
structure Spaced (found : List (Entry × Text)) : Prop where
  blank : ∀ entry gap, (entry, gap) ∈ found → Blank gap
  tidy : ∀ entry gap, (entry, gap) ∈ found → entry.Tidy

theorem trimEnd_gap {target gap : Text} (tidy : Text.trimEnd target = target)
    (blank : Blank gap) : Text.trimEnd (target ++ gap) = target := by
  rw [Text.trimEnd_append target blank, tidy]

/-- A tidy name ends where the gap begins. -/
theorem gap_inj {first second gap other : Text} (firstTidy : Text.trimEnd first = first)
    (secondTidy : Text.trimEnd second = second) (blank : Blank gap) (otherBlank : Blank other)
    (same : first ++ gap = second ++ other) : first = second ∧ gap = other := by
  have tidied := congrArg Text.trimEnd same
  rw [trimEnd_gap firstTidy blank, trimEnd_gap secondTidy otherBlank] at tidied
  rw [tidied] at same
  exact ⟨tidied, List.append_cancel_left same⟩

/-- What stands in front of a gap is below the same names. -/
theorem isBelow_gap {target gap name : Text} (blank : Blank gap) :
    isBelow (target ++ gap) name = isBelow target name := by
  rw [Bool.eq_iff_iff, isBelow, isBelow, List.isPrefixOf_iff_prefix, List.isPrefixOf_iff_prefix]
  constructor
  · intro below
    rcases List.prefix_or_prefix_of_prefix below (List.prefix_append target gap) with
      inside | ⟨rest, same⟩
    · exact inside
    · rw [← same, List.prefix_append_right_inj] at below
      cases rest with
      | nil =>
          rw [List.append_nil] at same
          exact same ▸ List.prefix_rfl
      | cons c rest =>
          have last := congrArg List.getLast? same
          rw [List.getLast?_append_of_ne_nil _ (List.cons_ne_nil c rest),
            List.getLast?_append_of_ne_nil _ (by decide)] at last
          have isBlank := blank ':' (below.subset (List.mem_of_getLast? last))
          exact absurd isBlank (by decide)
  · exact fun below => below.trans (List.prefix_append target gap)

theorem lastLevel_directivesOf {found : List (Entry × Text)} (spaced : Spaced found) :
    lastLevel (directivesOf found) [] = lastDefault (found.map Prod.fst) := by
  have nameless : ((directivesOf found).filter fun directive => directive.target = []).map
      Directive.level = (found.map Prod.fst).filterMap Entry.defaultLevel := by
    rw [directivesOf, List.filter_map, List.map_map, List.filterMap_map, ← List.filterMap_eq_map,
      List.filterMap_filter]
    apply List.filterMap_congr
    rintro ⟨entry, gap⟩ member
    have tidy := spaced.tidy entry gap member
    cases entry with
    | default level => rfl
    | bare target => simp [Entry.directive, Entry.defaultLevel, tidy.1]
    | assigned target level => simp [Entry.directive, Entry.defaultLevel, tidy.1]
  rw [lastLevel, ← List.getLast?_map, nameless, lastDefault]

/-! ## Redundant assignments leave every module settled -/

/-- Of two names that cover a module the longer one is below the shorter one. -/
theorem below_of_covers {path : ModulePath} {short long : Text} (isPrefix : short <+: long)
    (shortCovers : Covers short path) (longCovers : Covers long path) :
    short = long ∨ isBelow long short = true := by
  obtain ⟨depth, onPath, positive, rfl⟩ := shortCovers
  obtain ⟨deeper, inside, _, rfl⟩ := longCovers
  rcases Nat.lt_trichotomy depth deeper with further | rfl | shallower
  · right
    have split : path.segments.take deeper =
        path.segments.take depth ++ (path.segments.take deeper).drop depth := by
      conv_lhs => rw [← List.take_append_drop depth (path.segments.take deeper)]
      rw [List.take_take, Nat.min_eq_left (Nat.le_of_lt further)]
    have nonempty : path.segments.take depth ≠ [] := by
      rw [← List.length_pos_iff, List.length_take]
      omega
    have more : (path.segments.take deeper).drop depth ≠ [] := by
      rw [← List.length_pos_iff, List.length_drop, List.length_take]
      omega
    rw [split, join_append _ nonempty more, isBelow_iff]
    exact ⟨_, rfl⟩
  · exact Or.inl rfl
  · exact Or.inl (eq_of_prefix_of_len_le isPrefix
      (Nat.le_of_lt (len_join_take_lt (by assumption) shallower onPath)))

theorem matches_of_isBelow {target name upper : Text} (below : isBelow name upper = true)
    (matching : moduleMatches name target = true) : moduleMatches upper target = true := by
  obtain ⟨middle, rfl⟩ := isBelow_iff.mp below
  rw [moduleMatches_iff]
  right
  rcases (moduleMatches_iff _ target).mp matching with same | ⟨rest, same⟩
  · exact ⟨middle, same⟩
  · exact ⟨middle ++ ':' :: ':' :: rest, by simp [same]⟩

section

variable {found : List (Entry × Text)} {path : ModulePath} {base level : Level}

theorem mem_directivesOf_of_bare {name : Text} (isBare : name ∈ bares (found.map Prod.fst)) :
    ⟨name, .trace⟩ ∈ directivesOf found := by
  obtain ⟨⟨entry, gap⟩, member, same⟩ := List.mem_map.mp (mem_bares.mp isBare)
  obtain rfl : entry = .bare name := same
  exact List.mem_map.mpr ⟨(.bare name, gap), member, rfl⟩

theorem tidy_of_mem_bares (spaced : Spaced found) {name : Text}
    (isBare : name ∈ bares (found.map Prod.fst)) : name ≠ [] ∧ Text.trimEnd name = name := by
  obtain ⟨⟨entry, gap⟩, member, same⟩ := List.mem_map.mp (mem_bares.mp isBare)
  obtain rfl : entry = .bare name := same
  exact spaced.tidy _ gap member

/-- An idle assignment that decides a module gives it the level it has anyway. -/
theorem Idle.eq_settled {entries after : List Entry} {name gap : Text}
    (idle : Idle entries name level after) (tidy : (Entry.assigned name level).Tidy)
    (blank : Blank gap) (bareTidy : ∀ bare ∈ bares entries, (Entry.bare bare).Tidy)
    (matching : moduleMatches (name ++ gap) path.text = true)
    (longest : ∀ bare ∈ bares entries, moduleMatches bare path.text = true → bare <+: name ++ gap)
    (isLast : gap = [] → name ∉ bares after) : level = settled entries path.text base := by
  have named : name ++ gap ≠ [] := fun empty => tidy.1 (List.append_eq_nil_iff.mp empty).1
  have covers := (moduleMatches_iff_covers named path).mp matching
  have isModule := isModule_of_covers covers
  have inherited := idle.inherited gap blank isModule
  by_cases covered : ((bares entries).any fun bare => moduleMatches bare path.text) = true
  · rw [settled, if_pos covered]
    obtain ⟨bare, isBare, bareMatches⟩ := List.any_eq_true.mp covered
    have bareCovers := (moduleMatches_iff_covers (bareTidy bare isBare).1 path).mp bareMatches
    rcases below_of_covers (longest bare isBare bareMatches) bareCovers covers with same | below
    · obtain ⟨rfl, noGap⟩ := gap_inj (bareTidy bare isBare).2 tidy.2 Text.Blank.nil blank
        ((List.append_nil bare).trans same)
      rw [← noGap, List.append_nil] at isModule
      exact (idle.listed isModule isBare).resolve_right (isLast noGap.symm)
    · rw [isBelow_gap blank] at below
      rw [if_pos (List.any_eq_true.mpr ⟨bare, isBare, below⟩)] at inherited
      exact Option.some.inj inherited
  · have notBelow : ¬ (bares entries).any (isBelow name) = true := by
      rw [List.any_eq_true]
      rintro ⟨bare, isBare, below⟩
      rw [← isBelow_gap blank] at below
      exact covered (List.any_eq_true.mpr ⟨bare, isBare, matches_of_isBelow below matching⟩)
    rw [if_neg notBelow] at inherited
    rw [settled, if_neg covered, ← inherited]
    rfl

/-- Whatever the gaps are, a redundant assignment does not move a module. -/
theorem Resolves.eq_settled (spaced : Spaced found) (redundant : Redundant (found.map Prod.fst))
    (resolves : Resolves (directivesOf found) path.text base level) :
    level = settled (found.map Prod.fst) path.text base := by
  cases resolves with
  | unmatched none =>
      have unmatched : ¬ ((bares (found.map Prod.fst)).any fun name =>
          moduleMatches name path.text) = true := by
        rw [List.any_eq_true]
        rintro ⟨name, isBare, matching⟩
        exact none _ (mem_directivesOf_of_bare isBare)
          ⟨(tidy_of_mem_bares spaced isBare).1, matching⟩
      rw [settled, if_neg unmatched, lastLevel_directivesOf spaced]
  | matched named matching isLast longest =>
      have bareLongest : ∀ bare ∈ bares (found.map Prod.fst), moduleMatches bare path.text = true →
          bare <+: _ := fun bare isBare bareMatches =>
        longest _ (mem_directivesOf_of_bare isBare)
          ⟨(tidy_of_mem_bares spaced isBare).1, bareMatches⟩
      obtain ⟨before, after, split, others⟩ := lastLevel_eq_some_iff.mp isLast
      obtain ⟨front, rest, rfl, -, shape⟩ := List.map_eq_append_iff.mp split
      obtain ⟨⟨entry, gap⟩, back, rfl, same, rfl⟩ := List.map_eq_cons_iff.mp shape
      have member : (entry, gap) ∈ front ++ (entry, gap) :: back := by simp
      cases entry with
      | default level =>
          obtain ⟨rfl, -⟩ := Directive.mk.inj same
          contradiction
      | bare name =>
          obtain ⟨rfl, rfl⟩ := Directive.mk.inj same
          have isBare : name ∈ bares ((front ++ (.bare name, gap) :: back).map Prod.fst) :=
            mem_bares.mpr (List.mem_map.mpr ⟨_, member, rfl⟩)
          rw [settled, if_pos (List.any_eq_true.mpr ⟨name, isBare, matching⟩)]
      | assigned name level =>
          obtain ⟨rfl, rfl⟩ := Directive.mk.inj same
          have idle := redundant (front.map Prod.fst) name level (back.map Prod.fst)
            (by rw [List.map_append, List.map_cons])
          apply idle.eq_settled (spaced.tidy _ _ member) (spaced.blank _ _ member)
            (fun bare isBare => tidy_of_mem_bares spaced isBare) matching bareLongest
          rintro rfl isBare
          exact others _ (mem_directivesOf_of_bare isBare) (List.append_nil name).symm

end

/-! ## Specs -/

theorem tidy_trim {token : Text} (nonempty : ¬ (Text.trim token).isEmpty = true) :
    Text.trim token ≠ [] ∧ Text.trimEnd (Text.trim token) = Text.trim token := by
  constructor
  · simpa using nonempty
  · exact List.rdropWhile_idempotent _ _

theorem Entry.tidy_of_read {raw : Text} {entry : Entry}
    (isRead : Entry.read (tokens raw) = some entry) : entry.Tidy := by
  rw [tokens] at isRead
  generalize raw.splitOn '=' = pieces at isRead
  rcases pieces with _ | ⟨name, _ | ⟨level, _ | ⟨third, others⟩⟩⟩
  · contradiction
  · rw [List.map_singleton, Entry.read, Option.ite_none_left_eq_some] at isRead
    obtain ⟨nonempty, isRead⟩ := isRead
    cases named : Level.parse (Text.trim name) with
    | some level =>
        rw [named] at isRead
        obtain rfl := Option.some.inj isRead
        trivial
    | none =>
        rw [named] at isRead
        obtain rfl := Option.some.inj isRead
        exact tidy_trim nonempty
  · rw [List.map_cons, List.map_singleton, Entry.read] at isRead
    by_cases empty : (Text.trim name).isEmpty = true
    · simp only [if_pos empty] at isRead
      split at isRead
      · contradiction
      · obtain ⟨level, -, rfl⟩ := Option.map_eq_some_iff.mp isRead
        trivial
    · simp only [if_neg empty] at isRead
      split at isRead
      · obtain rfl := Option.some.inj isRead
        exact tidy_trim empty
      · obtain ⟨level, -, rfl⟩ := Option.map_eq_some_iff.mp isRead
        exact tidy_trim empty
  · contradiction

theorem spaced_gapped (spec : Text) : Spaced (gapped spec) := by
  have origin {entry : Entry} {gap' : Text} (member : (entry, gap') ∈ gapped spec) :
      ∃ raw, Entry.read (tokens raw) = some entry ∧ gap' = gap raw := by
    obtain ⟨raw, -, mapped⟩ := List.mem_filterMap.mp member
    obtain ⟨found, isRead, same⟩ := Option.map_eq_some_iff.mp mapped
    obtain ⟨rfl, rfl⟩ := Prod.mk.inj same
    exact ⟨raw, isRead, rfl⟩
  constructor
  · intro entry gap' member
    obtain ⟨raw, -, rfl⟩ := origin member
    exact fun c inside => List.mem_rtakeWhile_imp inside
  · intro entry gap' member
    obtain ⟨raw, isRead, -⟩ := origin member
    exact Entry.tidy_of_read isRead

/-- A spec whose assignments are redundant settles every module. -/
theorem effectiveLevel_of_redundant {spec : Text} (redundant : Redundant (entries spec))
    (path : ModulePath) (base : Level) :
    (TargetFilter.parse spec).effectiveLevel path.text base =
      settled (entries spec) path.text base := by
  have resolves := resolves_parse spec path.text base
  rw [recognised_eq_gapped] at resolves
  rw [← map_gapped] at redundant ⊢
  exact resolves.eq_settled (spaced_gapped spec) redundant

theorem agree_of_redundant {spec other : Text} (redundant : Redundant (entries spec))
    (respaced : Respaced spec other) :
    TargetFilter.AgreeOnModules (TargetFilter.parse spec) (TargetFilter.parse other) := by
  apply TargetFilter.agreeOnModules_of_effectiveLevel
  intro path base
  have same := entries_respaced respaced
  rw [effectiveLevel_of_redundant redundant, effectiveLevel_of_redundant (same ▸ redundant), same]

end XosLog.Filter
