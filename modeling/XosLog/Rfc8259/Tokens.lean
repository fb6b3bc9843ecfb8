import Mathlib.Data.List.Basic
import XosLog.Rfc8259.Reader

/-!
# Reading texts assembled from tokens

A writer emits tokens: string bodies made of escaped characters, number tokens,
literal names.  This file says when a piece of text is read back as a given
value whatever follows it, and that members assembled from such pieces are read
back in order.
-/

namespace Rfc8259

/-! ## Number tokens -/

theorem mem_takeWhile_digits {c : Char} {text : List Char}
    (member : c ∈ text.takeWhile Char.isDigit) : isNumberChar c = true := by
  have digit := List.mem_takeWhile_imp member
  simp [isNumberChar, digit]

theorem dropDigits_eq_some {text rest : List Char} (dropped : dropDigits text = some rest) :
    ∃ token, text = token ++ rest ∧ ∀ c ∈ token, isNumberChar c = true := by
  cases text with
  | nil => simp [dropDigits] at dropped
  | cons c tail =>
      simp only [dropDigits] at dropped
      split at dropped
      · rename_i digit
        have rest_eq := Option.some.inj dropped
        refine ⟨c :: tail.takeWhile Char.isDigit, ?_, ?_⟩
        · rw [← rest_eq, List.cons_append, List.takeWhile_append_dropWhile]
        · intro d member
          rcases List.mem_cons.mp member with rfl | member
          · simp [isNumberChar, digit]
          · exact mem_takeWhile_digits member
      · contradiction

theorem dropMinus_eq (text : List Char) :
    ∃ token, text = token ++ dropMinus text ∧ ∀ c ∈ token, isNumberChar c = true := by
  unfold dropMinus
  split
  · exact ⟨['-'], rfl, List.forall_mem_singleton.mpr rfl⟩
  · exact ⟨[], rfl, by simp⟩

theorem dropMinus_of_head {text : List Char} (unsigned : text.head? ≠ some '-') :
    dropMinus text = text := by
  unfold dropMinus
  split
  · exact absurd rfl unsigned
  · rfl

theorem dropSign_eq (text : List Char) :
    ∃ token, text = token ++ dropSign text ∧ ∀ c ∈ token, isNumberChar c = true := by
  unfold dropSign
  split
  · exact ⟨['+'], rfl, List.forall_mem_singleton.mpr rfl⟩
  · exact ⟨['-'], rfl, List.forall_mem_singleton.mpr rfl⟩
  · exact ⟨[], rfl, by simp⟩

theorem dropInteger_eq_some {text rest : List Char} (dropped : dropInteger text = some rest) :
    ∃ token, text = token ++ rest ∧ ∀ c ∈ token, isNumberChar c = true := by
  unfold dropInteger at dropped
  split at dropped
  · cases dropped
    exact ⟨['0'], rfl, List.forall_mem_singleton.mpr rfl⟩
  · exact dropDigits_eq_some dropped

theorem dropFraction_eq_some {text rest : List Char} (dropped : dropFraction text = some rest) :
    ∃ token, text = token ++ rest ∧ ∀ c ∈ token, isNumberChar c = true := by
  unfold dropFraction at dropped
  split at dropped
  · obtain ⟨token, rfl, numeric⟩ := dropDigits_eq_some dropped
    exact ⟨'.' :: token, rfl, List.forall_mem_cons.mpr ⟨by decide, numeric⟩⟩
  · cases dropped
    exact ⟨[], rfl, by simp⟩

theorem dropExponent_eq_some {text rest : List Char} (dropped : dropExponent text = some rest) :
    ∃ token, text = token ++ rest ∧ ∀ c ∈ token, isNumberChar c = true := by
  have signed : ∀ {mark : Char} {tail : List Char}, isNumberChar mark = true →
      dropDigits (dropSign tail) = some rest →
      ∃ token, mark :: tail = token ++ rest ∧ ∀ c ∈ token, isNumberChar c = true := by
    intro mark tail numeric dropped
    obtain ⟨sign, tail_eq, signNumeric⟩ := dropSign_eq tail
    obtain ⟨digits, digits_eq, digitsNumeric⟩ := dropDigits_eq_some dropped
    refine ⟨mark :: (sign ++ digits), ?_, ?_⟩
    · rw [tail_eq, digits_eq, List.cons_append, List.append_assoc]
    · exact List.forall_mem_cons.mpr
        ⟨numeric, List.forall_mem_append.mpr ⟨signNumeric, digitsNumeric⟩⟩
  unfold dropExponent at dropped
  split at dropped
  · exact signed (by decide) dropped
  · exact signed (by decide) dropped
  · cases dropped
    exact ⟨[], rfl, by simp⟩

/-- A number token consists of number characters. -/
theorem isNumber_forall {token : List Char} (number : isNumber token = true) :
    ∀ c ∈ token, isNumberChar c = true := by
  simp only [isNumber, beq_iff_eq, Option.bind_eq_some_iff] at number
  obtain ⟨afterFraction, ⟨afterInteger, integer, fraction⟩, exponent⟩ := number
  obtain ⟨minus, token_eq, minusNumeric⟩ := dropMinus_eq token
  obtain ⟨digits, digits_eq, digitsNumeric⟩ := dropInteger_eq_some integer
  obtain ⟨decimals, decimals_eq, decimalsNumeric⟩ := dropFraction_eq_some fraction
  obtain ⟨power, power_eq, powerNumeric⟩ := dropExponent_eq_some exponent
  rw [token_eq, digits_eq, decimals_eq, power_eq, List.append_nil]
  simp only [List.forall_mem_append]
  exact ⟨minusNumeric, digitsNumeric, decimalsNumeric, powerNumeric⟩

/-- A minus sign before an unsigned number token makes a number token. -/
theorem isNumber_minus {token : List Char} (unsigned : token.head? ≠ some '-')
    (number : isNumber token = true) : isNumber ('-' :: token) = true := by
  rw [isNumber, dropMinus_of_head unsigned] at number
  exact number

theorem isNumber_ne_nil {token : List Char} (number : isNumber token = true) : token ≠ [] := by
  rintro rfl
  exact absurd number (by decide)

/-! ## Value tokens -/

/-- The text that may follow a value: it does not continue a number token. -/
def EndsNumber (rest : List Char) : Prop :=
  ∀ c ∈ rest.head?, isNumberChar c = false

/-- `text` is read as `value` whatever follows it. -/
def ReadsAs (text : List Char) (value : Json) : Prop :=
  (∃ c tail, text = c :: tail ∧ isSpace c = false) ∧
    ∀ fuel rest, EndsNumber rest → readValue (fuel + 1) (text ++ rest) = some (value, rest)

/-- `body` followed by a quotation mark is read as the string `s`. -/
def BodyOf (body s : List Char) : Prop :=
  ∀ rest, readString (body ++ '"' :: rest) = some (s, rest)

/-- A number token is read as itself. -/
theorem readsAs_number {token : List Char} (number : isNumber token = true) :
    ReadsAs token (.number token) := by
  have numeric := isNumber_forall number
  obtain ⟨c, tail, rfl⟩ := List.exists_cons_of_ne_nil (isNumber_ne_nil number)
  have headNumeric : isNumberChar c = true := numeric c List.mem_cons_self
  have distinct :
      c ≠ '"' ∧ c ≠ '{' ∧ c ≠ '[' ∧ c ≠ 't' ∧ c ≠ 'f' ∧ c ≠ 'n' ∧ isSpace c = false := by
    refine ⟨?_, ?_, ?_, ?_, ?_, ?_, ?_⟩
    iterate 6 (rintro rfl; exact absurd headNumeric (by decide))
    by_contra space
    simp only [isSpace, Bool.not_eq_false, Bool.or_eq_true, beq_iff_eq] at space
    rcases space with ((rfl | rfl) | rfl) | rfl <;> exact absurd headNumeric (by decide)
  obtain ⟨quote, brace, bracket, letterT, letterF, letterN, visible⟩ := distinct
  refine ⟨⟨c, tail, rfl, visible⟩, fun fuel rest ends => ?_⟩
  have taken : (c :: tail ++ rest).takeWhile isNumberChar = c :: tail := by
    rw [List.takeWhile_append_of_pos numeric]
    cases rest with
    | nil => simp
    | cons d rest => simp [ends d rfl]
  have dropped : (c :: tail ++ rest).dropWhile isNumberChar = rest := by
    rw [List.dropWhile_append_of_pos numeric]
    cases rest with
    | nil => simp
    | cons d rest => simp [ends d rfl]
  rw [List.cons_append, readValue, if_neg quote, if_neg brace, if_neg bracket, if_neg letterT,
    if_neg letterF, if_neg letterN, ← List.cons_append, readNumber, taken, dropped, if_pos number]

theorem readsAs_string {body s : List Char} (bodyOf : BodyOf body s) :
    ReadsAs ('"' :: body ++ ['"']) (.string s) := by
  refine ⟨⟨'"', body ++ ['"'], rfl, by decide⟩, fun fuel rest _ => ?_⟩
  rw [List.cons_append, List.cons_append, List.append_assoc, readValue, if_pos rfl]
  simp [bodyOf rest]

theorem readName_append (name : String) (value : Json) (rest : List Char) :
    readName name value (name.toList ++ rest) = some (value, rest) := by
  rw [readName, List.dropPrefix?_append_of_beq rest BEq.rfl]
  rfl

theorem readsAs_true : ReadsAs "true".toList (.bool true) := by
  refine ⟨⟨'t', "rue".toList, rfl, by decide⟩, fun fuel rest _ => ?_⟩
  change readValue (fuel + 1) ('t' :: ("rue".toList ++ rest)) = _
  rw [readValue]
  exact readName_append "rue" _ rest

theorem readsAs_false : ReadsAs "false".toList (.bool false) := by
  refine ⟨⟨'f', "alse".toList, rfl, by decide⟩, fun fuel rest _ => ?_⟩
  change readValue (fuel + 1) ('f' :: ("alse".toList ++ rest)) = _
  rw [readValue]
  exact readName_append "alse" _ rest

theorem readsAs_null : ReadsAs "null".toList .null := by
  refine ⟨⟨'n', "ull".toList, rfl, by decide⟩, fun fuel rest _ => ?_⟩
  change readValue (fuel + 1) ('n' :: ("ull".toList ++ rest)) = _
  rw [readValue]
  exact readName_append "ull" _ rest

/-! ## Strings from an escaping function -/

/-- `escape` writes every character so that the reader takes it back as one
character of a string. -/
def Escapes (escape : Char → List Char) : Prop :=
  ∀ c, escape c ≠ [] ∧ ∀ fuel rest, readChars (fuel + 1) (escape c ++ rest) =
    (readChars fuel rest).map fun (s, rest) => (c :: s, rest)

theorem readChars_flatMap {escape : Char → List Char} (escapes : Escapes escape)
    (s : List Char) {fuel : Nat} (enough : s.length < fuel) (rest : List Char) :
    readChars fuel (s.flatMap escape ++ '"' :: rest) = some (s, rest) := by
  induction s generalizing fuel with
  | nil =>
      obtain ⟨fuel, rfl⟩ := Nat.exists_eq_add_one_of_ne_zero (Nat.ne_of_gt enough)
      rfl
  | cons c s ih =>
      obtain ⟨fuel, rfl⟩ := Nat.exists_eq_add_one_of_ne_zero (Nat.ne_zero_of_lt enough)
      rw [List.flatMap_cons, List.append_assoc, (escapes c).2,
        ih (Nat.lt_of_succ_lt_succ enough)]
      rfl

theorem length_le_flatMap {escape : Char → List Char} (escapes : Escapes escape)
    (s : List Char) : s.length ≤ (s.flatMap escape).length := by
  induction s with
  | nil => exact Nat.zero_le _
  | cons c s ih =>
      have positive := List.length_pos_iff.mpr (escapes c).1
      simp only [List.length_cons, List.flatMap_cons, List.length_append]
      omega

/-- The escaped characters of a string are one string body. -/
theorem bodyOf_flatMap {escape : Char → List Char} (escapes : Escapes escape) (s : List Char) :
    BodyOf (s.flatMap escape) s := by
  intro rest
  apply readChars_flatMap escapes
  have shorter := length_le_flatMap escapes s
  simp only [List.length_append, List.length_cons]
  omega

/-- The characters a string may hold unescaped. -/
def isPlain (c : Char) : Bool :=
  c != '"' && c != '\\' && 0x20 ≤ c.toNat

theorem readChars_plain {c : Char} (plain : isPlain c = true) (fuel : Nat) (rest : List Char) :
    readChars (fuel + 1) (c :: rest) =
      (readChars fuel rest).map fun (s, rest) => (c :: s, rest) := by
  simp only [isPlain, Bool.and_eq_true, bne_iff_ne, ne_eq, decide_eq_true_eq] at plain
  obtain ⟨⟨quote, backslash⟩, printable⟩ := plain
  rw [readChars.eq_5 _ _ _ quote backslash, if_neg (Nat.not_lt.mpr printable)]

theorem readChars_escape {c : Char} {escaped rest : List Char} (fuel : Nat)
    (read : readEscape escaped = some (c, rest)) :
    readChars (fuel + 1) ('\\' :: escaped) =
      (readChars fuel rest).map fun (s, rest) => (c :: s, rest) := by
  rw [readChars, read]
  rfl

/-! ## Objects -/

/-- The text of one member: the body of its key and the text of its value. -/
def memberText (member : List Char × List Char) : List Char :=
  '"' :: member.1 ++ '"' :: ':' :: member.2

/-- The text of an object with at least one member, without white space. -/
def objectText (first : List Char × List Char) (others : List (List Char × List Char)) :
    List Char :=
  '{' :: memberText first ++ others.flatMap (fun member => ',' :: memberText member) ++ ['}']

/-- The text of a member is read as its key and its value. -/
def MemberOf (text : List Char × List Char) (member : List Char × Json) : Prop :=
  BodyOf text.1 member.1 ∧ ReadsAs text.2 member.2

theorem skipSpace_value {text : List Char} {value : Json} (reads : ReadsAs text value)
    (rest : List Char) : skipSpace (text ++ rest) = text ++ rest := by
  obtain ⟨⟨c, tail, rfl, visible⟩, _⟩ := reads
  exact skipSpace_cons (tail ++ rest) visible

/-- A value without anything around it is a complete text. -/
theorem parse_of_readsAs {text : List Char} {value : Json} (reads : ReadsAs text value) :
    parse text = some value := by
  have visible := skipSpace_value reads []
  have read := reads.2 text.length [] (by rintro c ⟨⟩)
  rw [List.append_nil] at visible read
  rw [parse, visible, read]
  rfl

theorem readMembers_objectText (first : List Char × List Char) (member : List Char × Json)
    (others : List (List Char × List Char)) (members : List (List Char × Json))
    (firstOf : MemberOf first member) (othersOf : List.Forall₂ MemberOf others members)
    (fuel : Nat) (enough : others.length + 1 < fuel) (rest : List Char) :
    readMembers fuel
        (memberText first ++ (others.flatMap (fun member => ',' :: memberText member) ++
          '}' :: rest)) =
      some (member :: members, rest) := by
  induction othersOf generalizing first member fuel with
  | nil =>
      obtain ⟨fuel, rfl⟩ := Nat.exists_eq_add_one_of_ne_zero (Nat.ne_zero_of_lt enough)
      obtain ⟨fuel, rfl⟩ := Nat.exists_eq_add_one_of_ne_zero
        (Nat.ne_zero_of_lt (Nat.lt_of_succ_lt_succ enough))
      obtain ⟨keyOf, valueOf⟩ := firstOf
      have value := valueOf.2 fuel ('}' :: rest) (by rintro c ⟨⟩; decide)
      simp only [memberText, List.flatMap_nil, List.nil_append, List.cons_append,
        List.append_assoc]
      rw [readMembers, keyOf]
      simp only [skipSpace_cons _ (show isSpace ':' = false by decide),
        skipSpace_value valueOf, value, skipSpace_cons _ (show isSpace '}' = false by decide)]
  | @cons next nextMember others members nextOf _ ih =>
      obtain ⟨fuel, rfl⟩ := Nat.exists_eq_add_one_of_ne_zero (Nat.ne_zero_of_lt enough)
      simp only [List.length_cons] at enough
      obtain ⟨keyOf, valueOf⟩ := firstOf
      have tail := ih next nextMember nextOf fuel (by omega)
      obtain ⟨fuel, rfl⟩ := Nat.exists_eq_add_one_of_ne_zero (show fuel ≠ 0 by omega)
      have value := valueOf.2 fuel (',' :: (memberText next ++
        (others.flatMap (fun member => ',' :: memberText member) ++ '}' :: rest)))
        (by rintro c ⟨⟩; decide)
      have visible : skipSpace (memberText next ++
          (others.flatMap (fun member => ',' :: memberText member) ++ '}' :: rest)) =
          memberText next ++
          (others.flatMap (fun member => ',' :: memberText member) ++ '}' :: rest) :=
        skipSpace_cons _ (by decide)
      rw [show memberText first = '"' :: (first.1 ++ '"' :: ':' :: first.2) from rfl]
      simp only [List.flatMap_cons, List.cons_append, List.append_assoc]
      rw [readMembers, keyOf]
      simp only [skipSpace_cons _ (show isSpace ':' = false by decide),
        skipSpace_value valueOf, value, skipSpace_cons _ (show isSpace ',' = false by decide),
        visible, tail, Option.map_some]

/-- An object assembled from members is a complete text, read back with exactly
these members in order. -/
theorem parse_objectText {first : List Char × List Char} {member : List Char × Json}
    {others : List (List Char × List Char)} {members : List (List Char × Json)}
    (firstOf : MemberOf first member) (othersOf : List.Forall₂ MemberOf others members) :
    parse (objectText first others) = some (.object (member :: members)) := by
  have short : others.length ≤
      (others.flatMap (fun member => ',' :: memberText member)).length := by
    clear othersOf
    induction others with
    | nil => exact Nat.zero_le _
    | cons next others ih =>
        simp only [List.length_cons, List.flatMap_cons, List.length_append]
        omega
  have read := readMembers_objectText first member others members firstOf othersOf
    (objectText first others).length
    (by simp only [objectText, memberText, List.length_cons, List.length_append] at short ⊢
        omega) []
  obtain ⟨tail, tail_eq⟩ : ∃ tail, memberText first ++
      (others.flatMap (fun member => ',' :: memberText member) ++ ['}']) = '"' :: tail :=
    ⟨_, rfl⟩
  have text_eq : objectText first others = '{' :: '"' :: tail := by
    rw [← tail_eq]
    simp [objectText]
  rw [tail_eq] at read
  rw [parse, text_eq, skipSpace_cons _ (by decide), readValue, if_neg (by decide), if_pos rfl,
    skipSpace_cons _ (by decide), ← text_eq]
  simp [read]

end Rfc8259
