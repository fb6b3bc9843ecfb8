import XosLog.Filter
import XosLog.Hierarchy

/-!
# Resolution is nearest-ancestor lookup

A module path is a list of non-empty segments without colons.  Byte-string
matching of directives against its `::`-joined name is segment-prefix matching,
and longer matches are deeper ancestors, so the longest match is the nearest
ancestor in the module tree.
-/

namespace XosLog.Filter

/-- The name of the module at a path. -/
def join : List Text → Text
  | [] => []
  | [segment] => segment
  | segment :: rest => segment ++ ':' :: ':' :: join rest

@[simp]
theorem join_cons_cons (segment next : Text) (rest : List Text) :
    join (segment :: next :: rest) = segment ++ ':' :: ':' :: join (next :: rest) :=
  rfl

/-- A segment of a module path. -/
def IsSegment (segment : Text) : Prop :=
  segment ≠ [] ∧ ':' ∉ segment

/-- A path in the module tree. -/
structure ModulePath where
  segments : List Text
  wellFormed : ∀ segment ∈ segments, IsSegment segment

/-- The target string of a module. -/
def ModulePath.text (path : ModulePath) : Text :=
  join path.segments

/-- The directive's target names the module itself or one of its ancestors. -/
def Covers (target : Text) (path : ModulePath) : Prop :=
  ∃ depth ≤ path.segments.length, 0 < depth ∧ target = join (path.segments.take depth)

/-! ## Names and segments -/

theorem join_append (first : List Text) {second : List Text} (nonempty : first ≠ [])
    (more : second ≠ []) :
    join (first ++ second) = join first ++ ':' :: ':' :: join second := by
  induction first with
  | nil => contradiction
  | cons segment first ih =>
      cases first with
      | nil =>
          cases second with
          | nil => contradiction
          | cons next second => rfl
      | cons following first =>
          have rest := ih (List.cons_ne_nil _ _)
          rw [List.cons_append, List.cons_append, join_cons_cons, ← List.cons_append, rest]
          simp

/-- The name of a non-root module starts with a character of its first segment. -/
theorem join_head {segment : Text} (isSegment : IsSegment segment) (rest : List Text) :
    ∃ c tail, c ≠ ':' ∧ join (segment :: rest) = c :: tail := by
  obtain ⟨nonempty, colonFree⟩ := isSegment
  cases segment with
  | nil => contradiction
  | cons c segment =>
      have notColon : c ≠ ':' := fun same => colonFree (same ▸ List.mem_cons_self)
      cases rest with
      | nil => exact ⟨c, segment, notColon, rfl⟩
      | cons next rest => exact ⟨c, _, notColon, rfl⟩

/-- The only places where a module name can be cut at `::` are the boundaries of
its segments. -/
theorem eq_join_take_of_boundary {segments : List Text}
    (wellFormed : ∀ segment ∈ segments, IsSegment segment) {target rest : Text}
    (boundary : join segments = target ++ ':' :: ':' :: rest) :
    ∃ depth < segments.length, 0 < depth ∧ target = join (segments.take depth) := by
  induction segments generalizing target with
  | nil => simp [join] at boundary
  | cons segment segments ih =>
      have isSegment := wellFormed segment List.mem_cons_self
      have targetNonempty : target ≠ [] := by
        rintro rfl
        obtain ⟨c, tail, notColon, starts⟩ := join_head isSegment segments
        rw [starts] at boundary
        exact notColon (List.cons.inj boundary).1
      cases segments with
      | nil =>
          have colon : ':' ∈ segment := by
            rw [show segment = join [segment] from rfl, boundary]
            simp
          exact absurd colon isSegment.2
      | cons next segments =>
          rw [join_cons_cons, List.append_eq_append_iff] at boundary
          rcases boundary with ⟨beyond, rfl, cut⟩ | ⟨tail, rfl, cut⟩
          · have nextSegment := wellFormed next (List.mem_cons_of_mem _ List.mem_cons_self)
            obtain ⟨c, tail, notColon, starts⟩ := join_head nextSegment segments
            match beyond, cut with
            | [], _ => exact ⟨1, by simp, Nat.one_pos, by simp [join]⟩
            | [_], cut =>
                rw [starts] at cut
                simp only [List.singleton_append, List.cons.injEq] at cut
                exact absurd cut.2.2.1 notColon
            | first :: second :: target, cut =>
                simp only [List.cons_append, List.cons.injEq] at cut
                obtain ⟨rfl, rfl, cut⟩ := cut
                obtain ⟨depth, inside, positive, same⟩ :=
                  ih (fun s member => wellFormed s (List.mem_cons_of_mem _ member)) cut
                refine ⟨depth + 1, Nat.succ_lt_succ inside, Nat.succ_pos depth, ?_⟩
                obtain ⟨depth, rfl⟩ : ∃ k, depth = k + 1 := ⟨depth - 1, by omega⟩
                rw [same]
                rfl
          · cases tail with
            | nil => exact ⟨1, by simp, Nat.one_pos, by simp [join]⟩
            | cons c tail =>
                rw [List.cons_append, List.cons.injEq] at cut
                have colon : ':' ∈ target ++ c :: tail := by
                  rw [← cut.1]
                  simp
                exact absurd colon isSegment.2

/-- A deeper ancestor has a longer name. -/
theorem len_join_take_lt {segments : List Text} {depth deeper : Nat}
    (positive : 0 < depth) (further : depth < deeper) (onPath : deeper ≤ segments.length) :
    Text.len (join (segments.take depth)) < Text.len (join (segments.take deeper)) := by
  have split : segments.take deeper =
      segments.take depth ++ (segments.take deeper).drop depth := by
    conv_lhs => rw [← List.take_append_drop depth (segments.take deeper)]
    rw [List.take_take, Nat.min_eq_left (Nat.le_of_lt further)]
  have nonempty : segments.take depth ≠ [] := by
    rw [← List.length_pos_iff, List.length_take]
    omega
  have more : (segments.take deeper).drop depth ≠ [] := by
    rw [← List.length_pos_iff, List.length_drop, List.length_take]
    omega
  rw [split, join_append _ nonempty more, Text.len_append]
  have colon : Char.utf8Size ':' = 1 := rfl
  simp only [Text.len_cons, colon]
  omega

/-- A module has only one path. -/
theorem join_injective {first second : List Text}
    (firstWellFormed : ∀ segment ∈ first, IsSegment segment)
    (secondWellFormed : ∀ segment ∈ second, IsSegment segment)
    (same : join first = join second) : first = second := by
  induction first generalizing second with
  | nil =>
      cases second with
      | nil => rfl
      | cons segment second =>
          obtain ⟨c, tail, _, starts⟩ :=
            join_head (secondWellFormed segment List.mem_cons_self) second
          rw [starts] at same
          contradiction
  | cons segment first ih =>
      have isSegment := firstWellFormed segment List.mem_cons_self
      cases second with
      | nil =>
          obtain ⟨c, tail, _, starts⟩ := join_head isSegment first
          rw [starts] at same
          contradiction
      | cons other second =>
          have otherIsSegment := secondWellFormed other List.mem_cons_self
          match first, second, same with
          | [], [], same => exact congrArg (fun s => [s]) same
          | [], next :: second, same =>
              have colon : ':' ∈ segment := by
                rw [show segment = join [segment] from rfl, same]
                simp
              exact absurd colon isSegment.2
          | next :: first, [], same =>
              have colon : ':' ∈ other := by
                rw [show other = join [other] from rfl, ← same]
                simp
              exact absurd colon otherIsSegment.2
          | next :: first, following :: second, same =>
              rw [join_cons_cons, join_cons_cons, List.append_eq_append_iff] at same
              have whole : segment = other ∧ join (next :: first) = join (following :: second) := by
                rcases same with ⟨tail, rfl, cut⟩ | ⟨tail, rfl, cut⟩
                · cases tail with
                  | nil => simpa using cut
                  | cons c tail =>
                      have isColon := (List.cons.inj cut).1
                      exact absurd (by simp [← isColon]) otherIsSegment.2
                · cases tail with
                  | nil => simpa [eq_comm] using cut
                  | cons c tail =>
                      have isColon := (List.cons.inj cut).1
                      exact absurd (by simp [← isColon]) isSegment.2
              have rest := ih
                (fun s member => firstWellFormed s (List.mem_cons_of_mem _ member))
                (fun s member => secondWellFormed s (List.mem_cons_of_mem _ member)) whole.2
              rw [whole.1, rest]

/-- A module's name covers the module and what is below it, and nothing else. -/
theorem covers_text_iff {ancestor : ModulePath} (nonRoot : ancestor.segments ≠ [])
    (path : ModulePath) :
    Covers ancestor.text path ↔ ancestor.segments <+: path.segments := by
  constructor
  · rintro ⟨depth, _, _, same⟩
    have equal : ancestor.segments = path.segments.take depth :=
      join_injective ancestor.wellFormed
        (fun s member => path.wellFormed s (List.mem_of_mem_take member)) same
    rw [equal]
    exact List.take_prefix depth path.segments
  · intro isPrefix
    refine ⟨ancestor.segments.length, isPrefix.length_le, List.length_pos_iff.mpr nonRoot, ?_⟩
    rw [← List.prefix_iff_eq_take.mp isPrefix]
    rfl

/-- A directive matches its own target and what follows it after `::`. -/
theorem moduleMatches_iff (directive target : Text) :
    moduleMatches directive target = true ↔
      target = directive ∨ ∃ rest, target = directive ++ ':' :: ':' :: rest := by
  rw [moduleMatches, Bool.or_eq_true, beq_iff_eq]
  apply or_congr_right
  constructor
  · intro starts
    split at starts
    · rename_i after found
      obtain ⟨rest, rfl⟩ := List.isPrefixOf_iff_prefix.mp starts
      exact ⟨rest, (List.isPrefixOf?_eq_some_iff_append_eq.mp found).symm⟩
    · contradiction
  · rintro ⟨rest, boundary⟩
    rw [List.isPrefixOf?_eq_some_iff_append_eq.mpr boundary.symm]
    rfl

/-- A directive matches a module exactly when it names it or an ancestor. -/
theorem moduleMatches_iff_covers {target : Text} (named : target ≠ []) (path : ModulePath) :
    moduleMatches target path.text = true ↔ Covers target path := by
  rw [moduleMatches_iff]
  constructor
  · rintro (whole | ⟨rest, boundary⟩)
    · refine ⟨path.segments.length, le_rfl, ?_, ?_⟩
      · rw [List.length_pos_iff]
        intro root
        exact named (by rw [← whole, ModulePath.text, root]; rfl)
      · rw [List.take_length]
        exact whole.symm
    · obtain ⟨depth, inside, positive, same⟩ :=
        eq_join_take_of_boundary path.wellFormed boundary
      exact ⟨depth, Nat.le_of_lt inside, positive, same⟩
  · rintro ⟨depth, onPath, positive, rfl⟩
    rcases Nat.lt_or_eq_of_le onPath with inside | rfl
    · right
      have nonempty : path.segments.take depth ≠ [] := by
        rw [← List.length_pos_iff, List.length_take]
        omega
      have more : path.segments.drop depth ≠ [] := by
        rw [← List.length_pos_iff, List.length_drop]
        omega
      refine ⟨join (path.segments.drop depth), ?_⟩
      rw [← join_append _ nonempty more, List.take_append_drop]
      rfl
    · left
      rw [List.take_length]
      rfl

/-! ## The longest match -/

/-- A directive that takes part in the search for a target. -/
def IsMatch (target : Text) (directive : Directive) : Prop :=
  directive.target ≠ [] ∧ moduleMatches directive.target target = true

/-- What the search has found among the directives it has seen. -/
def LongestMatch (target : Text) (directives : List Directive) : Option (Nat × Level) → Prop
  | none => ∀ directive ∈ directives, ¬ IsMatch target directive
  | some (len, level) => ∃ best ∈ directives, IsMatch target best ∧
      Text.len best.target = len ∧ best.level = level ∧
      ∀ directive ∈ directives, IsMatch target directive → Text.len directive.target ≤ len

theorem consider_of_not_match {target : Text} {directive : Directive}
    (unmatched : ¬ IsMatch target directive) (best : Option (Nat × Level)) :
    consider target best directive = best := by
  unfold consider
  split
  · rfl
  · rename_i named
    rw [if_neg]
    intro matching
    exact unmatched ⟨by simpa using named, matching⟩

theorem consider_of_match {target : Text} {directive : Directive}
    (matched : IsMatch target directive) (best : Option (Nat × Level)) :
    consider target best directive =
      match best with
      | some (bestLen, level) =>
          if Text.len directive.target < bestLen then some (bestLen, level)
          else some (Text.len directive.target, directive.level)
      | none => some (Text.len directive.target, directive.level) := by
  obtain ⟨named, matching⟩ := matched
  unfold consider
  rw [if_neg (by simpa using named), if_pos matching]
  cases best <;> rfl

/-- One more directive keeps the search at a longest match. -/
theorem LongestMatch.consider {target : Text} {directives : List Directive}
    {best : Option (Nat × Level)} (longest : LongestMatch target directives best)
    (directive : Directive) :
    LongestMatch target (directives ++ [directive]) (consider target best directive) := by
  by_cases matched : IsMatch target directive
  · rw [consider_of_match matched]
    have isLast : directive ∈ directives ++ [directive] := List.mem_concat_self
    cases best with
    | none =>
        refine ⟨directive, isLast, matched, rfl, rfl, ?_⟩
        intro other member otherMatched
        rcases List.mem_append.mp member with earlier | last
        · exact absurd otherMatched (longest other earlier)
        · rw [List.mem_singleton.mp last]
    | some best =>
        obtain ⟨len, level⟩ := best
        obtain ⟨first, isMember, firstMatched, hasLen, hasLevel, bound⟩ := longest
        by_cases shorter : Text.len directive.target < len
        · simp only [if_pos shorter]
          refine ⟨first, List.mem_append_left _ isMember, firstMatched, hasLen, hasLevel, ?_⟩
          intro other member otherMatched
          rcases List.mem_append.mp member with earlier | last
          · exact bound other earlier otherMatched
          · rw [List.mem_singleton.mp last]
            exact Nat.le_of_lt shorter
        · simp only [if_neg shorter]
          refine ⟨directive, isLast, matched, rfl, rfl, ?_⟩
          intro other member otherMatched
          rcases List.mem_append.mp member with earlier | last
          · exact Nat.le_trans (bound other earlier otherMatched) (Nat.le_of_not_lt shorter)
          · rw [List.mem_singleton.mp last]
  · rw [consider_of_not_match matched]
    cases best with
    | none =>
        intro other member
        rcases List.mem_append.mp member with earlier | last
        · exact longest other earlier
        · rwa [List.mem_singleton.mp last]
    | some best =>
        obtain ⟨len, level⟩ := best
        obtain ⟨first, isMember, firstMatched, hasLen, hasLevel, bound⟩ := longest
        refine ⟨first, List.mem_append_left _ isMember, firstMatched, hasLen, hasLevel, ?_⟩
        intro other member otherMatched
        rcases List.mem_append.mp member with earlier | last
        · exact bound other earlier otherMatched
        · rw [List.mem_singleton.mp last] at otherMatched
          exact absurd otherMatched matched

/-- The search ends with a longest matching directive, if any matches. -/
theorem longestMatch_foldl (target : Text) (directives : List Directive) :
    LongestMatch target directives (directives.foldl (Filter.consider target) none) := by
  induction directives using List.reverseRecOn with
  | nil => exact fun _ member => absurd member List.not_mem_nil
  | append_singleton directives last ih =>
      rw [List.foldl_append, List.foldl_cons, List.foldl_nil]
      exact ih.consider last

/-! ## Resolution of arbitrary targets -/

/-- The level of the last directive under a name; the empty name is that of the
directives without a target. -/
def lastLevel (directives : List Directive) (name : Text) : Option Level :=
  ((directives.filter fun directive => directive.target = name).getLast?).map Directive.level

theorem lastLevel_recognised (spec name : Text) :
    lastLevel (recognised spec) name =
      ((TargetFilter.parse spec).directives.find? fun directive => directive.target = name).map
        Directive.level := by
  rw [lastLevel, TargetFilter.find?_parse]

/-- A directive of the parsed filter has the level of the last recognised one
under its name. -/
theorem lastLevel_of_mem_parse {spec : Text} {directive : Directive}
    (member : directive ∈ (TargetFilter.parse spec).directives) :
    lastLevel (recognised spec) directive.target = some directive.level := by
  rw [lastLevel_recognised,
    Keyed.find?_of_mem Directive.target (TargetFilter.parse spec).distinct member]
  rfl

/-- A name with a level is that of a directive of the parsed filter. -/
theorem exists_mem_parse_of_lastLevel {spec name : Text} {level : Level}
    (found : lastLevel (recognised spec) name = some level) :
    ∃ directive ∈ (TargetFilter.parse spec).directives, directive.target = name := by
  rw [lastLevel_recognised] at found
  obtain ⟨directive, isFirst, _⟩ := Option.map_eq_some_iff.mp found
  exact ⟨directive, List.mem_of_find?_eq_some isFirst, by
    simpa using List.find?_some isFirst⟩

/-- The level of a target: that of the last directive under the longest matching
name, else the global default, else the base level. -/
inductive Resolves (directives : List Directive) (target : Text) (base : Level) : Level → Prop
  | matched {name : Text} {level : Level} (named : name ≠ [])
      (matching : moduleMatches name target = true)
      (found : lastLevel directives name = some level)
      (longest : ∀ directive ∈ directives, IsMatch target directive →
        directive.target <+: name) : Resolves directives target base level
  | unmatched (none : ∀ directive ∈ directives, ¬ IsMatch target directive) :
      Resolves directives target base ((lastLevel directives []).getD base)

/-- The last directive under a name is one after which no other has the name. -/
theorem lastLevel_eq_some_iff {directives : List Directive} {name : Text} {level : Level} :
    lastLevel directives name = some level ↔
      ∃ before after, directives = before ++ ⟨name, level⟩ :: after ∧
        ∀ later ∈ after, later.target ≠ name := by
  rw [lastLevel, Option.map_eq_some_iff]
  constructor
  · rintro ⟨directive, isLast, rfl⟩
    rw [List.getLast?_filter, List.find?_eq_some_iff_append] at isLast
    obtain ⟨same, after, before, reversed, others⟩ := isLast
    obtain rfl := of_decide_eq_true same
    refine ⟨before.reverse, after.reverse, ?_, ?_⟩
    · rw [← List.reverse_reverse directives, reversed]
      simp
    · intro later member
      simpa using others later (List.mem_reverse.mp member)
  · rintro ⟨before, after, rfl, others⟩
    refine ⟨⟨name, level⟩, ?_, rfl⟩
    rw [List.getLast?_filter, List.find?_eq_some_iff_append]
    refine ⟨decide_eq_true rfl, after.reverse, before.reverse, by simp, ?_⟩
    intro later member
    simpa using others later (List.mem_reverse.mp member)

theorem mem_of_lastLevel {directives : List Directive} {name : Text} {level : Level}
    (found : lastLevel directives name = some level) : ⟨name, level⟩ ∈ directives := by
  obtain ⟨before, after, rfl, -⟩ := lastLevel_eq_some_iff.mp found
  exact List.mem_append_right before List.mem_cons_self

/-- Two matching names are the beginnings of one target. -/
theorem prefix_of_matches {target first second : Text}
    (firstMatches : moduleMatches first target = true)
    (secondMatches : moduleMatches second target = true) : first <+: second ∨ second <+: first := by
  have isPrefix {name : Text} (matching : moduleMatches name target = true) : name <+: target := by
    rcases (moduleMatches_iff name target).mp matching with same | ⟨rest, same⟩
    · exact same ▸ List.prefix_rfl
    · exact same ▸ List.prefix_append _ _
  exact List.prefix_or_prefix_of_prefix (isPrefix firstMatches) (isPrefix secondMatches)

theorem Resolves.unique {directives : List Directive} {target : Text} {base first second : Level}
    (one : Resolves directives target base first) (other : Resolves directives target base second) :
    first = second := by
  cases one with
  | matched named matching found longest =>
      cases other with
      | matched otherNamed otherMatching otherFound otherLongest =>
          have shorter := otherLongest _ (mem_of_lastLevel found) ⟨named, matching⟩
          have longer := longest _ (mem_of_lastLevel otherFound) ⟨otherNamed, otherMatching⟩
          have same := List.IsPrefix.eq_of_length_le shorter longer.length_le
          dsimp only at same
          rw [same, otherFound] at found
          exact (Option.some.inj found).symm
      | unmatched none => exact absurd ⟨named, matching⟩ (none _ (mem_of_lastLevel found))
  | unmatched none =>
      cases other with
      | matched named matching found _ =>
          exact absurd ⟨named, matching⟩ (none _ (mem_of_lastLevel found))
      | unmatched _ => rfl

/-- A longer beginning of a text has more bytes. -/
theorem eq_of_prefix_of_len_le {first second : Text} (isPrefix : first <+: second)
    (short : Text.len second ≤ Text.len first) : first = second := by
  obtain ⟨rest, rfl⟩ := isPrefix
  cases rest with
  | nil => rw [List.append_nil]
  | cons c rest =>
      have positive := c.utf8Size_pos
      rw [Text.len_append, Text.len_cons] at short
      omega

/-- The parsed filter resolves its recognised directives. -/
theorem resolves_parse (spec target : Text) (base : Level) :
    Resolves (recognised spec) target base
      ((TargetFilter.parse spec).effectiveLevel target base) := by
  have global : (TargetFilter.parse spec).defaultLevel base =
      (lastLevel (recognised spec) []).getD base := by
    rw [lastLevel_recognised]
    rfl
  have parsed {directive : Directive} (member : directive ∈ recognised spec) :
      ∃ kept ∈ (TargetFilter.parse spec).directives, kept.target = directive.target := by
    cases found : lastLevel (recognised spec) directive.target with
    | some level => exact exists_mem_parse_of_lastLevel found
    | none =>
        rw [lastLevel, Option.map_eq_none_iff, List.getLast?_eq_none_iff,
          List.filter_eq_nil_iff] at found
        exact absurd (decide_eq_true rfl) (found directive member)
  have longest := longestMatch_foldl target (TargetFilter.parse spec).directives
  rw [TargetFilter.effectiveLevel]
  cases search : (TargetFilter.parse spec).directives.foldl (consider target) none with
  | none =>
      rw [search] at longest
      dsimp only
      rw [global]
      apply Resolves.unmatched
      intro directive member matched
      obtain ⟨kept, isKept, same⟩ := parsed member
      apply longest kept isKept
      rwa [IsMatch, same]
  | some best =>
      obtain ⟨len, level⟩ := best
      rw [search] at longest
      obtain ⟨best, isBest, ⟨named, matching⟩, rfl, rfl, bound⟩ := longest
      apply Resolves.matched named matching (lastLevel_of_mem_parse isBest)
      intro directive member matched
      obtain ⟨kept, isKept, same⟩ := parsed member
      have shorter := bound kept isKept (by rwa [IsMatch, same])
      rw [same] at shorter
      rcases prefix_of_matches matched.2 matching with isPrefix | longer
      · exact isPrefix
      · exact eq_of_prefix_of_len_le longer shorter ▸ List.prefix_rfl

theorem effectiveLevel_of_resolves {spec target : Text} {base level : Level}
    (resolves : Resolves (recognised spec) target base level) :
    (TargetFilter.parse spec).effectiveLevel target base = level :=
  (resolves_parse spec target base).unique resolves

/-! ## The nearest ancestor -/

/-- The level that the module tree assigns to a path: that of the nearest
ancestor with a directive, else the global default, else the base level. -/
def treeLevel (directives : List Directive) (path : ModulePath) (base : Level) : Level :=
  (Hierarchy.nearest (fun ancestor => lastLevel directives (join ancestor)) path.segments).getD
    ((lastLevel directives []).getD base)

theorem join_take_ne_nil (path : ModulePath) {depth : Nat} (positive : 0 < depth)
    (onPath : depth ≤ path.segments.length) : join (path.segments.take depth) ≠ [] := by
  obtain ⟨segments, wellFormed⟩ := path
  cases segments with
  | nil =>
      rw [List.length_nil] at onPath
      omega
  | cons segment segments =>
      obtain ⟨depth, rfl⟩ : ∃ k, depth = k + 1 := ⟨depth - 1, by omega⟩
      obtain ⟨c, tail, _, starts⟩ :=
        join_head (wellFormed segment List.mem_cons_self) (segments.take depth)
      rw [List.take_succ_cons, starts]
      exact List.cons_ne_nil c tail

/-- The parsed filter resolves every module as the module tree does. -/
theorem effectiveLevel_parse (spec : Text) (path : ModulePath) (base : Level) :
    (TargetFilter.parse spec).effectiveLevel path.text base =
      treeLevel (recognised spec) path base := by
  have resolves := resolves_parse spec path.text base
  generalize (TargetFilter.parse spec).effectiveLevel path.text base = level at resolves ⊢
  rw [treeLevel]
  cases resolves with
  | unmatched none =>
      rw [Hierarchy.nearest_eq_none]
      · rfl
      · intro depth onPath positive
        by_contra assigned
        obtain ⟨level, found⟩ := Option.ne_none_iff_exists'.mp assigned
        have named := join_take_ne_nil path positive onPath
        exact none _ (mem_of_lastLevel found) ⟨named, (moduleMatches_iff_covers named path).mpr
          ⟨depth, onPath, positive, rfl⟩⟩
  | matched named matching found longest =>
      obtain ⟨depth, onPath, positive, rfl⟩ := (moduleMatches_iff_covers named path).mp matching
      rw [Hierarchy.nearest_eq_some _ positive onPath found]
      · rfl
      · intro deeper inside further
        by_contra someLevel
        obtain ⟨level, found⟩ := Option.ne_none_iff_exists'.mp someLevel
        have deeperPositive := Nat.lt_trans positive further
        have deeperNamed := join_take_ne_nil path deeperPositive inside
        obtain ⟨rest, shorter⟩ := longest _ (mem_of_lastLevel found) ⟨deeperNamed,
          (moduleMatches_iff_covers deeperNamed path).mpr ⟨deeper, inside, deeperPositive, rfl⟩⟩
        have lengths := congrArg Text.len shorter
        rw [Text.len_append] at lengths
        dsimp only at lengths
        have longer := len_join_take_lt positive further inside
        omega

/-- Decisions depend on the recognised directives only through those that name
the module or an ancestor, and the nameless ones. -/
theorem treeLevel_congr {first second : List Directive} {path : ModulePath}
    (agree : ∀ name, name = [] ∨ Covers name path →
      (first.filter fun directive => directive.target = name) =
        second.filter fun directive => directive.target = name)
    (base : Level) : treeLevel first path base = treeLevel second path base := by
  have sameLevel : ∀ name, name = [] ∨ Covers name path →
      lastLevel first name = lastLevel second name := by
    intro name relevant
    rw [lastLevel, agree name relevant, lastLevel]
  have sameNearest :
      Hierarchy.nearest (fun ancestor => lastLevel first (join ancestor)) path.segments =
        Hierarchy.nearest (fun ancestor => lastLevel second (join ancestor)) path.segments :=
    Hierarchy.nearest_congr fun depth onPath positive =>
      sameLevel _ (.inr ⟨depth, onPath, positive, rfl⟩)
  rw [treeLevel, treeLevel, sameLevel [] (.inl rfl), sameNearest]

/-- Two directives with different names change places without changing what is
recognised under any name. -/
theorem filter_swap (before after : List Directive) {first second : Directive}
    (different : first.target ≠ second.target) (name : Text) :
    ((before ++ first :: second :: after).filter fun directive => directive.target = name) =
      (before ++ second :: first :: after).filter fun directive => directive.target = name := by
  rw [List.filter_append, List.filter_append]
  by_cases named : first.target = name
  · have other : second.target ≠ name := fun same => different (named.trans same.symm)
    simp [named, other]
  · by_cases secondNamed : second.target = name <;> simp [named, secondNamed]

theorem enabled_congr {first second : TargetFilter} {target : Text} {base : Level}
    (same : first.effectiveLevel target base = second.effectiveLevel target base)
    (level : Level) : first.enabled target level base = second.enabled target level base := by
  rw [TargetFilter.enabled, TargetFilter.enabled, same]

/-- Resolution is nearest-ancestor lookup among the recognised directives.
Reordering directives with different names changes no decision, and neither do
the directives for a name that is not the target's or an ancestor's. -/
theorem resolution (spec : Text) (path : ModulePath) (base : Level) :
    (TargetFilter.parse spec).effectiveLevel path.text base =
        treeLevel (recognised spec) path base ∧
    (∀ reordered : Text,
      (∀ name, ((recognised reordered).filter fun directive => directive.target = name) =
        (recognised spec).filter fun directive => directive.target = name) →
      (TargetFilter.parse reordered).effectiveLevel path.text base =
          (TargetFilter.parse spec).effectiveLevel path.text base ∧
        ∀ level, (TargetFilter.parse reordered).enabled path.text level base =
          (TargetFilter.parse spec).enabled path.text level base) ∧
    (∀ name : Text, name ≠ [] → ¬ Covers name path → ∀ changed : Text,
      ((recognised changed).filter fun directive => directive.target ≠ name) =
        ((recognised spec).filter fun directive => directive.target ≠ name) →
      (TargetFilter.parse changed).effectiveLevel path.text base =
          (TargetFilter.parse spec).effectiveLevel path.text base ∧
        ∀ level, (TargetFilter.parse changed).enabled path.text level base =
          (TargetFilter.parse spec).enabled path.text level base) := by
  refine ⟨effectiveLevel_parse spec path base, ?_, ?_⟩
  · intro reordered sameOrder
    have same : (TargetFilter.parse reordered).effectiveLevel path.text base =
        (TargetFilter.parse spec).effectiveLevel path.text base := by
      rw [effectiveLevel_parse, effectiveLevel_parse]
      exact treeLevel_congr (fun name _ => sameOrder name) base
    exact ⟨same, enabled_congr same⟩
  · intro name named uncovered changed agree
    have same : (TargetFilter.parse changed).effectiveLevel path.text base =
        (TargetFilter.parse spec).effectiveLevel path.text base := by
      rw [effectiveLevel_parse, effectiveLevel_parse]
      apply treeLevel_congr
      intro other relevant
      have different : other ≠ name := by
        rintro rfl
        rcases relevant with root | covered
        · exact named root
        · exact uncovered covered
      have among : ∀ directives : List Directive,
          (directives.filter fun directive => directive.target = other) =
            (directives.filter fun directive => directive.target ≠ name).filter
              fun directive => directive.target = other := by
        intro directives
        rw [List.filter_filter]
        apply List.filter_congr
        intro directive _
        by_cases under : directive.target = other
        · simp [under, different]
        · simp [under]
      rw [among, agree, ← among]
    exact ⟨same, enabled_congr same⟩

/-- The module `app::db::pool`. -/
def poolPath : ModulePath where
  segments := ["app".toList, "db".toList, "pool".toList]
  wellFormed := by
    have checked : ∀ segment ∈ ["app".toList, "db".toList, "pool".toList],
        segment ≠ [] ∧ ':' ∉ segment := by decide
    exact checked

theorem resolution_pool :
    (TargetFilter.parse "app::db=trace,app::d=off".toList).effectiveLevel
        poolPath.text .error = .trace ∧
      (TargetFilter.parse "app::d=off,app::db=trace".toList).effectiveLevel
        poolPath.text .error = .trace ∧
      (TargetFilter.parse "app::db=trace,app::d".toList).effectiveLevel
        poolPath.text .error = .trace := by
  obtain ⟨resolved, reordering, locality⟩ :=
    resolution "app::db=trace,app::d=off".toList poolPath .error
  have isTrace := resolved.trans
    (by decide : treeLevel (recognised "app::db=trace,app::d=off".toList) poolPath .error = .trace)
  have uncovered : ¬ Covers "app::d".toList poolPath := by
    rintro ⟨depth, onPath, _, same⟩
    have shallow : depth < 4 := Nat.lt_succ_of_le onPath
    revert same
    revert depth
    decide
  refine ⟨isTrace, ?_, ?_⟩
  · have sameOrder : ∀ name,
        ((recognised "app::d=off,app::db=trace".toList).filter
            fun directive => directive.target = name) =
          (recognised "app::db=trace,app::d=off".toList).filter
            fun directive => directive.target = name := by
      have swapped : recognised "app::d=off,app::db=trace".toList =
          [⟨"app::d".toList, .off⟩, ⟨"app::db".toList, .trace⟩] := by decide
      have original : recognised "app::db=trace,app::d=off".toList =
          [⟨"app::db".toList, .trace⟩, ⟨"app::d".toList, .off⟩] := by decide
      rw [swapped, original]
      exact filter_swap [] [] (by decide)
    exact ((reordering _ sameOrder).1).trans isTrace
  · exact ((locality "app::d".toList (by decide) uncovered _ (by decide)).1).trans isTrace

end XosLog.Filter
