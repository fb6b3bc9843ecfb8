import Mathlib.Data.List.Lex
import XosLog.Time.Rendering

/-!
# Rendered timestamps sort as text

A later instant has a later date or a later time of its day, field by field.
Numbers padded to one width compare as their digits do, so the rendering of the
earlier instant comes first byte by byte.
-/

namespace XosLog.Timestamp

open Gregorian

/-! ## Padded numbers in byte order -/

/-- `first` comes before `second` in the lexicographic order of their bytes. -/
def BytesBefore (first second : Text) : Prop :=
  List.Lex (· < ·) (Text.utf8 first) (Text.utf8 second)

theorem BytesBefore.cons {first second : Text} (c : Char) (before : BytesBefore first second) :
    BytesBefore (c :: first) (c :: second) :=
  List.Lex.append_left _ before (String.utf8EncodeChar c)

/-- A difference inside strings of one length decides. -/
theorem lex_append {α : Type*} {r : α → α → Prop} {first second : List α}
    (before : List.Lex r first second) (sameLength : first.length = second.length)
    (rest later : List α) : List.Lex r (first ++ rest) (second ++ later) := by
  induction before with
  | nil => contradiction
  | rel less => exact List.Lex.rel less
  | cons _ inductionHypothesis =>
      exact List.Lex.cons (inductionHypothesis (Nat.succ.inj sameLength))

/-- The last digit of a padded number. -/
theorem zeroPadded_succ {width : Nat} (positive : 0 < width) (n : Nat) :
    Text.zeroPadded (width + 1) n =
      Text.zeroPadded width (n / 10 : Nat) ++ [(n % 10).digitChar] := by
  change List.replicate (width + 1 - (Nat.toDigits 10 n).length) '0' ++ Nat.toDigits 10 n =
    List.replicate (width - (Nat.toDigits 10 (n / 10)).length) '0' ++ Nat.toDigits 10 (n / 10) ++ _
  by_cases small : n < 10
  · have zero : n / 10 = 0 := Nat.div_eq_of_lt small
    rw [zero, Nat.toDigits_of_lt_base small, Nat.toDigits_zero, Nat.mod_eq_of_lt small]
    obtain ⟨width, rfl⟩ := Nat.exists_eq_add_one_of_ne_zero (Nat.ne_of_gt positive)
    simp [List.replicate_succ']
  · rw [Nat.toDigits_of_base_le (by decide) (Nat.le_of_not_lt small), List.length_append,
      List.length_singleton, Nat.add_sub_add_right, List.append_assoc]

theorem utf8_digitChar : ∀ d < 10, String.utf8EncodeChar d.digitChar = [UInt8.ofNat (48 + d)] := by
  decide

theorem digit_before : ∀ n < 10, ∀ m < n, UInt8.ofNat (48 + m) < UInt8.ofNat (48 + n) := by
  decide

theorem utf8_zeroPadded_succ {width : Nat} (positive : 0 < width) (n : Nat) :
    Text.utf8 (Text.zeroPadded (width + 1) n) =
      Text.utf8 (Text.zeroPadded width (n / 10 : Nat)) ++ [UInt8.ofNat (48 + n % 10)] := by
  rw [zeroPadded_succ positive, Text.utf8_append, Text.utf8_cons, Text.utf8_nil, List.append_nil,
    utf8_digitChar _ (Nat.mod_lt n (by decide))]

theorem utf8_zeroPadded_one {n : Nat} (digit : n < 10) :
    Text.utf8 (Text.zeroPadded 1 n) = [UInt8.ofNat (48 + n)] := by
  have single : Text.zeroPadded 1 n = [n.digitChar] := by
    change List.replicate (1 - (Nat.toDigits 10 n).length) '0' ++ Nat.toDigits 10 n = _
    rw [Nat.toDigits_of_lt_base digit]
    rfl
  rw [single, Text.utf8_cons, Text.utf8_nil, List.append_nil, utf8_digitChar n digit]

theorem length_utf8_zeroPadded {width n : Nat} (positive : 0 < width) (fits : n < 10 ^ width) :
    (Text.utf8 (Text.zeroPadded width n)).length = width := by
  induction width, positive using Nat.le_induction generalizing n with
  | base =>
      rw [utf8_zeroPadded_one fits]
      rfl
  | succ width positive inductionHypothesis =>
      have quotient : n / 10 < 10 ^ width := Nat.div_lt_of_lt_mul (by rwa [pow_succ'] at fits)
      rw [utf8_zeroPadded_succ positive, List.length_append, inductionHypothesis quotient]
      rfl

/-- Numbers padded to one width compare as their digits do. -/
theorem zeroPadded_before {width m n : Nat} (positive : 0 < width) (fits : n < 10 ^ width)
    (less : m < n) : BytesBefore (Text.zeroPadded width m) (Text.zeroPadded width n) := by
  induction width, positive using Nat.le_induction generalizing m n with
  | base =>
      rw [BytesBefore, utf8_zeroPadded_one fits, utf8_zeroPadded_one (Nat.lt_trans less fits)]
      exact List.Lex.rel (digit_before n fits m less)
  | succ width positive inductionHypothesis =>
      have quotient : ∀ {k}, k < 10 ^ (width + 1) → k / 10 < 10 ^ width := by
        intro k below
        rw [pow_succ'] at below
        exact Nat.div_lt_of_lt_mul below
      rw [BytesBefore, utf8_zeroPadded_succ positive, utf8_zeroPadded_succ positive]
      rcases Nat.lt_or_eq_of_le (Nat.div_le_div_right (Nat.le_of_lt less)) with tens | same
      · apply lex_append (inductionHypothesis (quotient fits) tens)
        rw [length_utf8_zeroPadded positive (quotient fits),
          length_utf8_zeroPadded positive (quotient (Nat.lt_trans less fits))]
      · have digits : m % 10 < n % 10 := by omega
        rw [same]
        exact List.Lex.append_left _
          (List.Lex.rel (digit_before _ (Nat.mod_lt n (by decide)) _ digits)) _

/-- A padded field decides, or leaves the decision to what follows it. -/
theorem field_before {width m n : Nat} {rest later : Text} (positive : 0 < width)
    (fits : n < 10 ^ width) (less : m < n ∨ m = n ∧ BytesBefore rest later) :
    BytesBefore (Text.zeroPadded width m ++ rest) (Text.zeroPadded width n ++ later) := by
  rw [BytesBefore, Text.utf8_append, Text.utf8_append]
  rcases less with decided | ⟨rfl, undecided⟩
  · apply lex_append (zeroPadded_before positive fits decided)
    rw [length_utf8_zeroPadded positive fits,
      length_utf8_zeroPadded positive (Nat.lt_trans decided fits)]
  · exact List.Lex.append_left _ undecided _

/-- A padded field before a separator, when what follows decides a tie. -/
theorem separated_before {width m n : Nat} {rest later : Text} {undecided : Prop} (c : Char)
    (positive : 0 < width) (fits : n < 10 ^ width) (less : m < n ∨ m = n ∧ undecided)
    (next : undecided → BytesBefore rest later) :
    BytesBefore (Text.zeroPadded width m ++ c :: rest) (Text.zeroPadded width n ++ c :: later) := by
  apply field_before positive fits
  apply less.imp_right
  rintro ⟨same, tie⟩
  exact ⟨same, (next tie).cons c⟩

/-! ## Instants in order -/

/-- The time of day is earlier, field by field. -/
def TimeBefore (first second : Timestamp) : Prop :=
  first.hour < second.hour ∨ first.hour = second.hour ∧
    (first.minute < second.minute ∨ first.minute = second.minute ∧
      (first.second < second.second ∨ first.second = second.second ∧
        first.microsecond < second.microsecond))

/-- The fields are earlier, from the year down. -/
def FieldsBefore (first second : Timestamp) : Prop :=
  first.year < second.year ∨ first.year = second.year ∧
    (first.month < second.month ∨ first.month = second.month ∧
      (first.day < second.day ∨ first.day = second.day ∧ TimeBefore first second))

theorem timeBefore_of_timeOfDay {first second : Timestamp}
    (before : first.timeOfDay < second.timeOfDay)
    (minute : first.minute < 60 ∧ second.minute < 60)
    (seconds : first.second < 60 ∧ second.second < 60)
    (microsecond : first.microsecond < 1000000 ∧ second.microsecond < 1000000) :
    TimeBefore first second := by
  unfold timeOfDay at before
  unfold TimeBefore
  omega

/-- An earlier instant has earlier fields. -/
theorem fieldsBefore_of_lt {first second offsetSeconds : Int} (before : first < second)
    (lower : firstDay 1970 0 * 86400000000 ≤ first)
    (upper : second < firstDay 1970 10000 * 86400000000) :
    FieldsBefore (fromUnixMicros first offsetSeconds) (fromUnixMicros second offsetSeconds) := by
  obtain ⟨date, ⟨year, month, day⟩, -, -, days⟩ := exists_onDate offsetSeconds lower
    (Int.lt_trans before upper) (by decide) (by decide)
  obtain ⟨laterDate, ⟨laterYear, laterMonth, laterDay⟩, -, -, laterDays⟩ :=
    exists_onDate offsetSeconds (Int.le_trans lower (Int.le_of_lt before)) upper
      (by decide) (by decide)
  rcases Int.lt_or_eq_of_le (Int.ediv_le_ediv (by decide) (Int.le_of_lt before) :
      first / 86400000000 ≤ second / 86400000000) with earlier | same
  · rw [← days, ← laterDays] at earlier
    rw [FieldsBefore, year, laterYear, month, laterMonth, day, laterDay]
    rcases Date.lex_of_daysSince_lt earlier with less | ⟨sameYear, less | ⟨sameMonth, less⟩⟩
    · exact Or.inl less
    · exact Or.inr ⟨sameYear, Or.inl less⟩
    · exact Or.inr ⟨sameYear, Or.inr ⟨sameMonth, Or.inl less⟩⟩
  · have sameDate : civilFromDays (first / microsPerDay) = civilFromDays (second / microsPerDay) :=
      congrArg civilFromDays same
    obtain ⟨-, minute, seconds, microsecond, time⟩ := fromUnixMicros_timeOfDay first offsetSeconds
    obtain ⟨-, laterMinute, laterSeconds, laterMicrosecond, laterTime⟩ :=
      fromUnixMicros_timeOfDay second offsetSeconds
    have times : TimeBefore (fromUnixMicros first offsetSeconds)
        (fromUnixMicros second offsetSeconds) := by
      apply timeBefore_of_timeOfDay
      · rw [time, laterTime]
        omega
      · exact ⟨minute, laterMinute⟩
      · exact ⟨seconds, laterSeconds⟩
      · exact ⟨microsecond, laterMicrosecond⟩
    refine Or.inr ⟨congrArg Prod.fst sameDate, Or.inr ⟨?_, Or.inr ⟨?_, times⟩⟩⟩
    · exact congrArg (fun fields => fields.2.1) sameDate
    · exact congrArg (fun fields => fields.2.2) sameDate

/-- Earlier fields of fixed width are printed as smaller bytes. -/
theorem display_before_of_fields {first second : Timestamp} {date : Date}
    (before : FieldsBefore first second) (onDate : second.OnDate date) (nonneg : 0 ≤ first.year)
    (fourDigits : second.year ≤ 9999) (hour : second.hour < 24) (minute : second.minute < 60)
    (seconds : second.second < 60) (microsecond : second.microsecond < 1000000) :
    BytesBefore first.display second.display := by
  obtain ⟨-, monthEq, dayEq⟩ := onDate
  have monthValid := date.month_valid
  have dayValid := date.day_valid
  have monthLength := monthLength_le date.year date.month
  have notBefore : first.year ≤ second.year := by
    rcases before with less | ⟨same, -⟩
    · exact Int.le_of_lt less
    · exact Int.le_of_eq same
  obtain ⟨year, yearEq⟩ := Int.eq_ofNat_of_zero_le nonneg
  obtain ⟨laterYear, laterYearEq⟩ := Int.eq_ofNat_of_zero_le (Int.le_trans nonneg notBefore)
  rw [display_eq, display_eq, yearEq, laterYearEq]
  rw [FieldsBefore, yearEq, laterYearEq] at before
  apply separated_before '-' (by decide) (by omega)
    (before.imp Int.ofNat_lt.mp (And.imp_left Int.ofNat.inj))
  intro before
  apply separated_before '-' (by decide) (by omega) before
  intro before
  apply separated_before 'T' (by decide) (by omega) before
  intro before
  apply separated_before ':' (by decide) (by omega) before
  intro before
  apply separated_before ':' (by decide) (by omega) before
  intro before
  apply separated_before '.' (by decide) (by omega) before
  intro before
  apply field_before (by decide)
  · omega
  · exact Or.inl before

/-- Rendered timestamps of one offset sort as their instants do, in the local
years that have four digits. -/
theorem display_sorts {offsetSeconds first second : Int} (before : first < second)
    (lower : firstDay 1970 0 * 86400000000 ≤ first + offsetSeconds * 1000000)
    (upper : second + offsetSeconds * 1000000 < firstDay 1970 10000 * 86400000000) :
    BytesBefore (now first offsetSeconds).display (now second offsetSeconds).display := by
  have shifted : first + offsetSeconds * 1000000 < second + offsetSeconds * 1000000 :=
    Int.add_lt_add_right before _
  obtain ⟨date, ⟨year, -, -⟩, nonneg, -, -⟩ := exists_onDate offsetSeconds lower
    (Int.lt_trans shifted upper) (by decide) (by decide)
  obtain ⟨laterDate, onDate, -, fourDigits, -⟩ := exists_onDate offsetSeconds
    (Int.le_trans lower (Int.le_of_lt shifted)) upper (by decide) (by decide)
  obtain ⟨hour, minute, seconds, microsecond, -⟩ :=
    fromUnixMicros_timeOfDay (second + offsetSeconds * 1000000) offsetSeconds
  apply display_before_of_fields (fieldsBefore_of_lt shifted lower upper) onDate
  · exact year ▸ nonneg
  · exact onDate.1 ▸ Int.lt_add_one_iff.mp fourDigits
  · exact hour
  · exact minute
  · exact seconds
  · exact microsecond

/-- Across the end of a leap year, west of UTC. -/
theorem display_sorts_newYear :
    BytesBefore (now 1735707599999999 (-18000)).display (now 1735707600000000 (-18000)).display :=
  display_sorts (by decide) (by rw [firstDay_eq_sub]; decide) (by rw [firstDay_eq_sub]; decide)

end XosLog.Timestamp
