import Mathlib.Logic.Relation
import XosLog.Filter.GlobalDefault

/-!
# White space around separators

White space is put in or taken out at the ends of a spec and next to the
separators `,` and `=`.  What an item says is a function of its trimmed tokens
and so survives this, but for one piece: the parser trims an item before it
splits the item at `=`, and the gap left of the `=` becomes a part of the
target.
-/

namespace XosLog.Filter

open Text (Blank)

/-! ## Respacing -/

/-- A place at an end of the text or next to one of the separators. -/
def Beside (separators : List Char) (left right : Text) : Prop :=
  (∀ c ∈ left.getLast?, c ∈ separators) ∨ ∀ c ∈ right.head?, c ∈ separators

/-- White space is put in at an end or next to a `,` or `=`. -/
def Inserted (spec other : Text) : Prop :=
  ∃ left blank right, Blank blank ∧ Beside [',', '='] left right ∧
    spec = left ++ right ∧ other = left ++ blank ++ right

/-- White space is put in and taken out any number of times. -/
def Respaced : Text → Text → Prop :=
  Relation.EqvGen Inserted

/-- The last piece of a text ends as the text does, unless it is empty. -/
theorem splitOn_append_left (separator : Char) (left : Text) :
    ∃ before first, separator ∉ first ∧ (first ≠ [] → first.getLast? = left.getLast?) ∧
      ∀ rest, (left ++ rest).splitOn separator = before ++ (first ++ rest).splitOn separator := by
  by_cases cut : separator ∈ left
  · obtain ⟨ending, beginning, reversed, free⟩ :=
      List.eq_append_cons_of_mem (List.mem_reverse.mpr cut)
    have shape : left = beginning.reverse ++ separator :: ending.reverse := by
      rw [← List.reverse_reverse left, reversed]
      simp
    refine ⟨beginning.reverse.splitOn separator, ending.reverse, ?_, ?_, ?_⟩
    · rwa [List.mem_reverse]
    · intro nonempty
      rw [shape, List.getLast?_append_of_ne_nil _ (List.cons_ne_nil _ _),
        List.getLast?_cons_of_ne_nil nonempty]
    · intro rest
      rw [shape, List.append_assoc, List.cons_append, List.splitOn_append_cons_self]
  · exact ⟨[], left, cut, fun _ => rfl, fun _ => rfl⟩

/-- The first piece of a text begins as the text does, unless it is empty. -/
theorem splitOn_append_right (separator : Char) (right : Text) :
    ∃ last after, separator ∉ last ∧ (last ≠ [] → last.head? = right.head?) ∧
      ∀ front, separator ∉ front →
        (front ++ right).splitOn separator = (front ++ last) :: after := by
  by_cases cut : separator ∈ right
  · obtain ⟨last, rest, rfl, free⟩ := List.eq_append_cons_of_mem cut
    refine ⟨last, rest.splitOn separator, free, ?_, ?_⟩
    · intro nonempty
      rw [List.head?_append_of_ne_nil _ nonempty]
    · intro front frontFree
      have both : separator ∉ front ++ last := by
        rw [List.mem_append]
        exact not_or.mpr ⟨frontFree, free⟩
      rw [← List.append_assoc, List.splitOn_append_cons_self_of_not_mem both]
  · refine ⟨right, [], cut, fun _ => rfl, ?_⟩
    intro front frontFree
    apply List.splitOn_eq_singleton
    rw [List.mem_append]
    exact not_or.mpr ⟨frontFree, cut⟩

/-- The piece around a place is beside the other separators, and the other pieces
do not change. -/
theorem splitOn_insert {separator : Char} {separators : List Char} {blank : Text}
    (free : separator ∉ blank) {left right : Text}
    (beside : Beside (separator :: separators) left right) :
    ∃ before first last after, Beside separators first last ∧
      (left ++ right).splitOn separator = before ++ (first ++ last) :: after ∧
      (left ++ blank ++ right).splitOn separator = before ++ (first ++ blank ++ last) :: after := by
  obtain ⟨before, first, firstFree, ends, cutLeft⟩ := splitOn_append_left separator left
  obtain ⟨last, after, lastFree, starts, cutRight⟩ := splitOn_append_right separator right
  have others {c : Char} {piece : Text} (member : c ∈ piece) (pieceFree : separator ∉ piece)
      (listed : c ∈ separator :: separators) : c ∈ separators := by
    rcases List.mem_cons.mp listed with rfl | listed
    · exact absurd member pieceFree
    · exact listed
  refine ⟨before, first, last, after, ?_, ?_, ?_⟩
  · rcases beside with left | right
    · left
      intro c isLast
      have member := List.mem_of_getLast? isLast
      rw [ends (List.ne_nil_of_mem member)] at isLast
      exact others member firstFree (left c isLast)
    · right
      intro c isFirst
      have member := List.mem_of_mem_head? isFirst
      rw [starts (List.ne_nil_of_mem member)] at isFirst
      exact others member lastFree (right c isFirst)
  · rw [cutLeft, cutRight first firstFree]
  · have both : separator ∉ first ++ blank := by
      rw [List.mem_append]
      exact not_or.mpr ⟨firstFree, free⟩
    rw [List.append_assoc, cutLeft, ← List.append_assoc, cutRight _ both]

/-! ## Tokens -/

/-- The trimmed parts of an item between its `=` signs. -/
def tokens (raw : Text) : List Text :=
  (raw.splitOn '=').map Text.trim

/-- The white space that ends the part left of the first `=`. -/
def gap (raw : Text) : Text :=
  (Text.trimStart ((raw.splitOn '=').headD [])).rtakeWhile Text.isWhitespace

/-- What an item says, apart from its gap. -/
inductive Entry
  /-- A level, bare or behind a stray `=`. -/
  | default (level : Level)
  | bare (target : Text)
  /-- A target before a single `=`, with the level after it. -/
  | assigned (target : Text) (level : Level)
  deriving DecidableEq, Repr

/-- What tokens say; `none` when the item is skipped. -/
def Entry.read : List Text → Option Entry
  | [token] =>
      if token.isEmpty then none
      else
        match Level.parse token with
        | some level => some (.default level)
        | none => some (.bare token)
  | [name, level] =>
      if level.isEmpty then
        if name.isEmpty then none else some (.assigned name .trace)
      else
        (Level.parse level).map fun level =>
          if name.isEmpty then .default level else .assigned name level
  | _ => none

/-- The directive of an entry, with the gap in front of its `=`. -/
def Entry.directive (gap : Text) : Entry → Directive
  | .default level => { target := [], level }
  | .bare target => { target, level := .trace }
  | .assigned target level => { target := target ++ gap, level }

/-- The items of a spec before they are trimmed. -/
def rawItems (spec : Text) : List Text :=
  (mods spec).splitOn ','

/-- What the items of a spec say. -/
def entries (spec : Text) : List Entry :=
  (rawItems spec).filterMap fun raw => Entry.read (tokens raw)

/-- What the items of a spec say, and their gaps. -/
def gapped (spec : Text) : List (Entry × Text) :=
  (rawItems spec).filterMap fun raw => (Entry.read (tokens raw)).map fun entry => (entry, gap raw)

theorem map_gapped (spec : Text) : (gapped spec).map Prod.fst = entries spec := by
  rw [gapped, entries, List.map_filterMap]
  apply List.filterMap_congr
  intro raw _
  cases Entry.read (tokens raw) <;> rfl

/-- An item with one `=` is recognised by its two tokens. -/
theorem parseItem_trim_equals {name level : Text} (nameFree : '=' ∉ name)
    (levelFree : '=' ∉ level) :
    parseItem (Text.trim (name ++ '=' :: level)) =
      (Entry.read (tokens (name ++ '=' :: level))).map
        (Entry.directive (gap (name ++ '=' :: level))) := by
  have visible : Text.isWhitespace '=' = false := by decide
  have trimmed := Text.trim_visible visible name level
  have startFree : '=' ∉ Text.trimStart name := fun member =>
    nameFree (Text.mem_of_mem_trimStart member)
  have endFree : '=' ∉ Text.trimEnd level := fun member =>
    levelFree (Text.mem_of_mem_trimEnd member)
  have split : (name ++ '=' :: level).splitOn '=' = [name, level] :=
    splitOn_equals nameFree levelFree
  have spaced : Text.trim name ++ gap (name ++ '=' :: level) = Text.trimStart name := by
    rw [gap, split]
    exact List.rdropWhile_append_rtakeWhile
  rw [trimmed, parseItem_equals startFree endFree, Text.trim_trimEnd, tokens, split,
    List.map_cons, List.map_singleton, Entry.read, ← spaced]
  by_cases empty : Text.trim name = []
  · have start : Text.trimStart name = [] := Text.trimStart_eq_nil_of_trim empty
    have nothing : (([] : Text).isEmpty = true) = True := by simp
    rw [spaced, start, empty]
    simp only [nothing, if_true]
    split_ifs
    · rfl
    · cases Level.parse (Text.trim level) <;> rfl
  · have nonempty : ¬ (Text.trim name).isEmpty = true := by simpa using empty
    have longer : ¬ (Text.trim name ++ gap (name ++ '=' :: level)).isEmpty = true := by
      simp [empty]
    rw [if_neg nonempty, if_neg longer]
    split_ifs
    · rfl
    · cases Level.parse (Text.trim level) with
      | none => rfl
      | some found =>
          simp only [Option.map_some]
          rfl

/-- An item with more than one `=` is skipped, also by its tokens. -/
theorem parseItem_trim_many {name level : Text} (nameFree : '=' ∉ name) (levelFree : '=' ∉ level)
    (rest : Text) :
    parseItem (Text.trim (name ++ '=' :: level ++ '=' :: rest)) = none ∧
      Entry.read (tokens (name ++ '=' :: level ++ '=' :: rest)) = none := by
  have visible : Text.isWhitespace '=' = false := by decide
  have startFree : '=' ∉ Text.trimStart name := fun member =>
    nameFree (Text.mem_of_mem_trimStart member)
  have trimmed : Text.trim (name ++ '=' :: level ++ '=' :: rest) =
      Text.trimStart name ++ '=' :: level ++ '=' :: Text.trimEnd rest := by
    rw [Text.trim_visible visible, Text.trimStart_visible visible]
  obtain ⟨piece, others, split⟩ := Text.splitOn_ne_nil '=' rest
  have pieces : (name ++ '=' :: level ++ '=' :: rest).splitOn '=' =
      name :: level :: piece :: others := by
    rw [List.append_assoc, List.cons_append, List.splitOn_append_cons_self_of_not_mem nameFree,
      List.splitOn_append_cons_self_of_not_mem levelFree, split]
  constructor
  · rw [trimmed, parseItem_many startFree levelFree]
  · rw [tokens, pieces]
    rfl

/-- An item is recognised by its tokens, and its target ends with its gap. -/
theorem parseItem_trim (raw : Text) :
    parseItem (Text.trim raw) = (Entry.read (tokens raw)).map (Entry.directive (gap raw)) := by
  rcases equals_cases raw with free | ⟨name, level, rfl, nameFree, levelFree⟩ |
    ⟨name, level, rest, rfl, nameFree, levelFree⟩
  · rw [tokens, List.splitOn_eq_singleton free, List.map_singleton, Entry.read]
    by_cases empty : Text.trim raw = []
    · rw [empty]
      rfl
    · have trimmedFree : '=' ∉ Text.trim raw := fun member => free (Text.mem_of_mem_trim member)
      rw [parseItem_bare empty trimmedFree, if_neg (by simpa using empty)]
      cases Level.parse (Text.trim raw) <;> rfl
  · exact parseItem_trim_equals nameFree levelFree
  · obtain ⟨skipped, unread⟩ := parseItem_trim_many nameFree levelFree rest
    rw [skipped, unread]
    rfl

theorem recognised_eq_gapped (spec : Text) :
    recognised spec = (gapped spec).map fun (entry, gap) => entry.directive gap := by
  rw [recognised, gapped, List.map_filterMap, rawItems]
  apply List.filterMap_congr
  intro raw _
  rw [parseItem_trim, Option.map_map]
  rfl

/-! ## Respacing keeps what the items say -/

theorem not_mem_of_blank {c : Char} (visible : Text.isWhitespace c = false) {text : Text}
    (blank : Blank text) : c ∉ text := by
  intro member
  rw [blank c member] at visible
  contradiction

theorem tokens_insert {left blank right : Text} (isBlank : Blank blank)
    (beside : Beside ['='] left right) :
    tokens (left ++ blank ++ right) = tokens (left ++ right) := by
  obtain ⟨before, first, last, after, edge, plain, spaced⟩ :=
    splitOn_insert (not_mem_of_blank (by decide) isBlank) beside
  have same : Text.trim (first ++ blank ++ last) = Text.trim (first ++ last) := by
    rcases edge with ends | starts
    · have empty : first = [] := by
        rw [← List.getLast?_eq_none_iff, Option.eq_none_iff_forall_not_mem]
        exact fun c isLast => absurd (ends c isLast) List.not_mem_nil
      rw [empty, List.nil_append, Text.trim_append_left isBlank, List.nil_append]
    · have empty : last = [] := by
        rw [← List.head?_eq_none_iff, Option.eq_none_iff_forall_not_mem]
        exact fun c isFirst => absurd (starts c isFirst) List.not_mem_nil
      rw [empty, List.append_nil, Text.trim_append_right _ isBlank, List.append_nil]
  rw [tokens, tokens, plain, spaced, List.map_append, List.map_append, List.map_cons,
    List.map_cons, same]

theorem entries_inserted {spec other : Text} (inserted : Inserted spec other) :
    entries spec = entries other := by
  obtain ⟨left, blank, right, isBlank, beside, rfl, rfl⟩ := inserted
  have free {c : Char} (visible : Text.isWhitespace c = false) : c ∉ blank :=
    not_mem_of_blank visible isBlank
  have weaker : Beside ['/', ',', '='] left right :=
    beside.imp (fun ends c isLast => List.mem_cons_of_mem _ (ends c isLast))
      fun starts c isFirst => List.mem_cons_of_mem _ (starts c isFirst)
  obtain ⟨before, first, last, after, inner, plain, spaced⟩ :=
    splitOn_insert (free (by decide)) weaker
  cases before with
  | cons piece before =>
      have same : mods (left ++ blank ++ right) = mods (left ++ right) := by
        rw [mods, mods, plain, spaced]
        rfl
      rw [entries, entries, rawItems, rawItems, same]
  | nil =>
      have modsPlain : mods (left ++ right) = first ++ last := by
        rw [mods, plain]
        rfl
      have modsSpaced : mods (left ++ blank ++ right) = first ++ blank ++ last := by
        rw [mods, spaced]
        rfl
      obtain ⟨items, start, ending, others, edge, cut, cutSpaced⟩ :=
        splitOn_insert (free (by decide)) inner
      rw [entries, entries, rawItems, rawItems, modsPlain, modsSpaced, cut, cutSpaced,
        List.filterMap_append, List.filterMap_append, List.filterMap_cons, List.filterMap_cons,
        tokens_insert isBlank edge]

/-- What the items say does not depend on the white space around separators. -/
theorem entries_respaced {spec other : Text} (respaced : Respaced spec other) :
    entries spec = entries other := by
  induction respaced with
  | rel spec other inserted => exact entries_inserted inserted
  | refl spec => rfl
  | symm spec other _ inductionHypothesis => exact inductionHypothesis.symm
  | trans spec middle other _ _ first second => exact first.trans second

/-! ## Choosing the gaps -/

theorem ne_of_not_mem {separator : Char} {text : Text} (free : separator ∉ text) :
    ∀ c ∈ text, (c != separator) = true := by
  intro c member
  rw [bne_iff_ne]
  rintro rfl
  exact free member

/-- The item with another gap in front of its first `=`. -/
def regap (blank raw : Text) : Text :=
  if '=' ∈ raw then
    Text.trimEnd (raw.takeWhile (· != '=')) ++ blank ++ raw.dropWhile (· != '=')
  else raw

theorem regap_equals {name : Text} (free : '=' ∉ name) (blank level : Text) :
    regap blank (name ++ '=' :: level) = Text.trimEnd name ++ blank ++ '=' :: level := by
  rw [regap, if_pos (by simp), List.takeWhile_append_of_pos (ne_of_not_mem free),
    List.dropWhile_append_of_pos (ne_of_not_mem free)]
  simp

/-- Choosing a gap is respacing, whatever stands around the item. -/
theorem respaced_regap {blank : Text} (isBlank : Blank blank) (before raw after : Text) :
    Respaced (before ++ raw ++ after) (before ++ regap blank raw ++ after) := by
  by_cases equals : '=' ∈ raw
  · obtain ⟨name, level, rfl, free⟩ := List.eq_append_cons_of_mem equals
    obtain ⟨back, backBlank, split⟩ := Text.exists_trimEnd name
    have edge : Beside [',', '='] (before ++ Text.trimEnd name) ('=' :: level ++ after) := by
      right
      intro c isFirst
      obtain rfl := Option.some.inj isFirst
      decide
    rw [regap_equals free]
    apply Relation.EqvGen.trans _ (before ++ Text.trimEnd name ++ ('=' :: level ++ after))
    · apply Relation.EqvGen.symm
      apply Relation.EqvGen.rel
      refine ⟨_, back, _, backBlank, edge, rfl, ?_⟩
      conv_lhs => rw [split]
      simp
    · apply Relation.EqvGen.rel
      refine ⟨_, blank, _, isBlank, edge, rfl, ?_⟩
      simp
  · rw [regap, if_neg equals]
    exact .refl _

/-- Choosing the gaps of all items. -/
theorem respaced_intercalate {gaps : Nat → Text} (isBlank : ∀ index, Blank (gaps index))
    (raws : List Text) (index : Nat) (before after : Text) :
    Respaced (before ++ [','].intercalate raws ++ after)
      (before ++ [','].intercalate
        ((raws.zipIdx index).map fun (raw, index) => regap (gaps index) raw) ++ after) := by
  induction raws generalizing index before with
  | nil => exact .refl _
  | cons raw raws inductionHypothesis =>
      have first := respaced_regap (isBlank index) before raw
      cases raws with
      | nil =>
          rw [List.zipIdx_singleton, List.map_singleton, List.intercalate_singleton,
            List.intercalate_singleton]
          exact first after
      | cons next raws =>
          have others := inductionHypothesis (index + 1) (before ++ regap (gaps index) raw ++ [','])
          have own := first (',' :: [','].intercalate (next :: raws) ++ after)
          rw [List.zipIdx_cons, List.map_cons] at others ⊢
          rw [List.zipIdx_cons, List.map_cons, List.intercalate_cons_cons,
            List.intercalate_cons_cons]
          simp only [List.append_assoc, List.cons_append, List.nil_append] at own others ⊢
          exact own.trans _ _ _ others

/-- Only an item with a `=` assigns, and only to a target in front of it. -/
theorem Entry.eq_of_read_assigned {name target : Text} {others : List Text} {level : Level}
    (isRead : Entry.read (name :: others) = some (.assigned target level)) :
    target = name ∧ name ≠ [] ∧ others ≠ [] := by
  match others, isRead with
  | [], isRead =>
      rw [Entry.read, Option.ite_none_left_eq_some] at isRead
      cases named : Level.parse name <;> simp [named] at isRead
  | [value], isRead =>
      refine ⟨?_, ?_, List.cons_ne_nil value []⟩
      · rw [Entry.read] at isRead
        split_ifs at isRead
        · exact (Entry.assigned.inj (Option.some.inj isRead)).1.symm
        · obtain ⟨found, -, same⟩ := Option.map_eq_some_iff.mp isRead
          contradiction
        · obtain ⟨found, -, same⟩ := Option.map_eq_some_iff.mp isRead
          exact (Entry.assigned.inj same).1.symm
      · rintro rfl
        rw [Entry.read] at isRead
        split at isRead
        · contradiction
        · obtain ⟨found, -, same⟩ := Option.map_eq_some_iff.mp isRead
          contradiction
  | _ :: _ :: _, isRead => contradiction

theorem Entry.directive_congr {entry : Entry} {first second : Text}
    (same : ∀ target level, entry = .assigned target level → first = second) :
    entry.directive first = entry.directive second := by
  cases entry with
  | default level => rfl
  | bare target => rfl
  | assigned target level => rw [same target level rfl]

theorem gap_regap {name blank : Text} (free : '=' ∉ name) (isBlank : Blank blank)
    (nonempty : Text.trim name ≠ []) (level : Text) :
    gap (Text.trimEnd name ++ blank ++ '=' :: level) = blank := by
  have nameFree : '=' ∉ Text.trimEnd name ++ blank := by
    rw [List.mem_append]
    exact not_or.mpr ⟨fun member => free (Text.mem_of_mem_trimEnd member),
      not_mem_of_blank (by decide) isBlank⟩
  have start : Text.trimStart (Text.trimEnd name ++ blank) = Text.trim name ++ blank := by
    have something : ¬ (Text.trimEnd name).dropWhile Text.isWhitespace = [] := by
      rw [← Text.trimStart_trimEnd] at nonempty
      exact nonempty
    rw [Text.trimStart, List.dropWhile_append, if_neg (by simpa using something)]
    exact congrArg (· ++ blank) (Text.trimStart_trimEnd name)
  have ending : (Text.trim name ++ blank).rdropWhile Text.isWhitespace = Text.trim name := by
    change Text.trimEnd (Text.trim name ++ blank) = Text.trim name
    rw [Text.trimEnd_append _ isBlank]
    exact List.rdropWhile_idempotent _ _
  have whole : (Text.trim name ++ blank).rdropWhile Text.isWhitespace ++
      (Text.trim name ++ blank).rtakeWhile Text.isWhitespace = Text.trim name ++ blank :=
    List.rdropWhile_append_rtakeWhile
  rw [ending] at whole
  rw [gap, List.splitOn_append_cons_self_of_not_mem nameFree, List.headD_cons, start]
  exact List.append_cancel_left whole

/-- An item with a chosen gap says the same, and its target ends with this gap. -/
theorem parseItem_regap {blank : Text} (isBlank : Blank blank) (raw : Text) :
    parseItem (Text.trim (regap blank raw)) =
      (Entry.read (tokens raw)).map (Entry.directive blank) := by
  rw [parseItem_trim]
  by_cases equals : '=' ∈ raw
  · obtain ⟨name, level, rfl, free⟩ := List.eq_append_cons_of_mem equals
    have nameFree : '=' ∉ Text.trimEnd name ++ blank := by
      rw [List.mem_append]
      exact not_or.mpr ⟨fun member => free (Text.mem_of_mem_trimEnd member),
        not_mem_of_blank (by decide) isBlank⟩
    have same : tokens (Text.trimEnd name ++ blank ++ '=' :: level) =
        tokens (name ++ '=' :: level) := by
      rw [tokens, tokens, List.splitOn_append_cons_self_of_not_mem nameFree,
        List.splitOn_append_cons_self_of_not_mem free, List.map_cons, List.map_cons,
        Text.trim_append_right _ isBlank, Text.trim_trimEnd]
    rw [regap_equals free, same]
    apply Option.map_congr
    intro entry isRead
    apply Entry.directive_congr
    rintro target level' rfl
    rw [tokens, List.splitOn_append_cons_self_of_not_mem free, List.map_cons] at isRead
    exact gap_regap free isBlank (Entry.eq_of_read_assigned isRead).2.1 level
  · rw [regap, if_neg equals]
    apply Option.map_congr
    intro entry isRead
    apply Entry.directive_congr
    rintro target level rfl
    rw [tokens, List.splitOn_eq_singleton equals, List.map_singleton] at isRead
    exact absurd rfl (Entry.eq_of_read_assigned isRead).2.2

/-- The spec whose items have the chosen gaps. -/
def withGaps (gaps : Nat → Text) (spec : Text) : Text :=
  [','].intercalate ((rawItems spec).zipIdx.map fun (raw, index) => regap (gaps index) raw) ++
    spec.dropWhile (· != '/')

/-- What the items of a spec say, and their positions. -/
def indexed (spec : Text) : List (Entry × Nat) :=
  (rawItems spec).zipIdx.filterMap fun (raw, index) =>
    (Entry.read (tokens raw)).map fun entry => (entry, index)

theorem mods_eq_takeWhile (spec : Text) : mods spec = spec.takeWhile (· != '/') := by
  by_cases slash : '/' ∈ spec
  · obtain ⟨front, rest, rfl, free⟩ := List.eq_append_cons_of_mem slash
    rw [mods, List.splitOn_append_cons_self_of_not_mem free,
      List.takeWhile_append_of_pos (ne_of_not_mem free)]
    simp
  · rw [mods_eq_self slash, List.takeWhile_eq_self_iff.mpr (ne_of_not_mem slash)]

theorem mods_append_dropWhile {front : Text} (free : '/' ∉ front) (spec : Text) :
    mods (front ++ spec.dropWhile (· != '/')) = front := by
  by_cases slash : '/' ∈ spec
  · obtain ⟨before, rest, rfl, beforeFree⟩ := List.eq_append_cons_of_mem slash
    rw [List.dropWhile_append_of_pos (ne_of_not_mem beforeFree),
      List.dropWhile_cons_of_neg (by simp), mods, List.splitOn_append_cons_self_of_not_mem free]
    rfl
  · rw [List.dropWhile_eq_nil_iff.mpr (ne_of_not_mem slash), List.append_nil, mods_eq_self free]

theorem respaced_withGaps {gaps : Nat → Text} (isBlank : ∀ index, Blank (gaps index))
    (spec : Text) : Respaced spec (withGaps gaps spec) := by
  have respaced := respaced_intercalate isBlank (rawItems spec) 0 [] (spec.dropWhile (· != '/'))
  rw [rawItems, List.intercalate_splitOn, List.nil_append, List.nil_append, mods_eq_takeWhile,
    List.takeWhile_append_dropWhile, ← mods_eq_takeWhile] at respaced
  exact respaced

theorem mem_regap {c : Char} {blank raw : Text} (member : c ∈ regap blank raw) :
    c ∈ blank ∨ c ∈ raw := by
  unfold regap at member
  split at member
  · rw [List.mem_append, List.mem_append] at member
    rcases member with (early | inside) | late
    · exact Or.inr ((List.takeWhile_prefix _).subset (Text.mem_of_mem_trimEnd early))
    · exact Or.inl inside
    · exact Or.inr ((List.dropWhile_suffix _).subset late)
  · exact Or.inr member

/-- The chosen gaps move neither a `,` nor the `/`. -/
theorem rawItems_withGaps {gaps : Nat → Text} (isBlank : ∀ index, Blank (gaps index))
    (spec : Text) :
    rawItems (withGaps gaps spec) =
      (rawItems spec).zipIdx.map fun (raw, index) => regap (gaps index) raw := by
  have free {c : Char} (visible : Text.isWhitespace c = false)
      (absent : ∀ raw ∈ rawItems spec, c ∉ raw) :
      ∀ piece ∈ (rawItems spec).zipIdx.map fun (raw, index) => regap (gaps index) raw,
        c ∉ piece := by
    intro piece isPiece
    obtain ⟨⟨raw, index⟩, listed, rfl⟩ := List.mem_map.mp isPiece
    intro member
    rcases mem_regap member with inside | inside
    · exact not_mem_of_blank visible (isBlank index) inside
    · exact absent raw (List.fst_mem_of_mem_zipIdx listed) inside
  have nonempty : ((rawItems spec).zipIdx.map fun (raw, index) => regap (gaps index) raw) ≠ [] := by
    rw [Ne, List.map_eq_nil_iff, List.zipIdx_eq_nil_iff]
    exact List.splitOn_ne_nil ',' (mods spec)
  have commas : ∀ raw ∈ rawItems spec, ',' ∉ raw := fun raw isRaw member =>
    (Text.mem_splitOn isRaw member).2 rfl
  have slashes : ∀ raw ∈ rawItems spec, '/' ∉ raw := by
    intro raw isRaw member
    have inMods := (Text.mem_splitOn isRaw member).1
    rw [mods_eq_takeWhile] at inMods
    have visible := List.mem_takeWhile_imp inMods
    simp at visible
  have slashFree : '/' ∉ [','].intercalate
      ((rawItems spec).zipIdx.map fun (raw, index) => regap (gaps index) raw) :=
    Text.not_mem_intercalate (by decide) (free (by decide) slashes)
  rw [rawItems, withGaps, mods_append_dropWhile slashFree]
  exact List.splitOn_intercalate ',' (free (by decide) commas) nonempty

/-- A chosen gap is the end of its target. -/
theorem recognised_withGaps {gaps : Nat → Text} (isBlank : ∀ index, Blank (gaps index))
    (spec : Text) :
    recognised (withGaps gaps spec) =
      (indexed spec).map fun (entry, index) => entry.directive (gaps index) := by
  change (rawItems (withGaps gaps spec)).filterMap (fun raw => parseItem (Text.trim raw)) = _
  rw [rawItems_withGaps isBlank, List.filterMap_map, indexed, List.map_filterMap]
  apply List.filterMap_congr
  rintro ⟨raw, index⟩ _
  dsimp only [Function.comp]
  rw [parseItem_regap (isBlank index), Option.map_map]
  rfl

end XosLog.Filter
