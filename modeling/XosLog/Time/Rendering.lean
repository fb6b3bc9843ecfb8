import Mathlib.Tactic.Linarith
import XosLog.Calendar.Rfc3339
import XosLog.Time.Civil

/-!
# What a rendered timestamp denotes

The local fields of a timestamp are shifted by the whole offset, in seconds,
while the rendering prints hours and minutes of it.  A reader of RFC 3339 gets
the instant back exactly when nothing of the offset is lost in between.
-/

namespace XosLog.Timestamp

open Gregorian Rfc3339

/-! ## Padded numbers -/

theorem zeroPadded_isDigit {width n : Nat} {c : Char} (member : c ∈ Text.zeroPadded width n) :
    c.isDigit = true := by
  rcases List.mem_append.mp member with padding | digit
  · rw [List.eq_of_mem_replicate padding]
    rfl
  · exact Nat.isDigit_of_mem_toDigits (by decide) (by decide) digit

theorem length_zeroPadded {width n : Nat} (positive : 0 < width) (fits : n < 10 ^ width) :
    (Text.zeroPadded width n).length = width := by
  have short : (Text.decimal n).length ≤ width :=
    (Nat.length_toDigits_le_iff (by decide) positive).mpr fits
  change (List.replicate _ _ ++ Text.decimal n).length = width
  rw [List.length_append, List.length_replicate]
  omega

theorem ofDigitChars_zeroPadded (width n : Nat) :
    Nat.ofDigitChars 10 (Text.zeroPadded width n) 0 = n := by
  change Nat.ofDigitChars 10 (List.replicate _ _ ++ Nat.toDigits 10 n) 0 = n
  rw [Nat.ofDigitChars_append, Nat.ofDigitChars_replicate_zero, Nat.mul_zero,
    Nat.ofDigitChars_ten_toDigits]

theorem readDigits_zeroPadded {width n : Nat} (rest : Text) (positive : 0 < width)
    (fits : n < 10 ^ width) :
    readDigits width (Text.zeroPadded width n ++ rest) = some (n, rest) := by
  rw [readDigits_append rest (length_zeroPadded positive fits) fun _ => zeroPadded_isDigit,
    ofDigitChars_zeroPadded]

/-! ## The offset -/

/-- The part of the rendering that follows the local fields. -/
def displayOffset (offsetSeconds : Int) : Text :=
  if offsetSeconds = 0 then ['Z']
  else
    (if offsetSeconds < 0 then '-' else '+') ::
      (Text.zeroPadded 2 (offsetSeconds.natAbs / 3600 : Nat) ++
        ':' :: Text.zeroPadded 2 (offsetSeconds.natAbs % 3600 / 60 : Nat))

theorem head_displayOffset (offsetSeconds : Int) :
    ∀ c ∈ (displayOffset offsetSeconds).head?, c.isDigit = false := by
  intro c member
  unfold displayOffset at member
  split at member
  · obtain rfl := Option.some.inj member
    rfl
  · obtain rfl := Option.some.inj member
    split <;> rfl

/-- Hours of two digits are read back; a third digit stands where the colon should. -/
theorem readHourMinute_zeroPadded (hours : Nat) {minutes : Nat} (minute : minutes < 60) :
    readHourMinute (Text.zeroPadded 2 hours ++ ':' :: Text.zeroPadded 2 minutes) =
      if hours ≤ 23 then some (hours * 60 + minutes, []) else none := by
  unfold readHourMinute
  by_cases fits : hours < 100
  · have readMinutes := readDigits_zeroPadded [] (show 0 < 2 by decide)
      (show minutes < 10 ^ 2 by omega)
    rw [List.append_nil] at readMinutes
    have colon (text : Text) : expect [':'] (':' :: text) = some text := rfl
    rw [readDigits_zeroPadded _ (by decide) fits]
    simp only [Option.bind_eq_bind, Option.bind_some, colon, readMinutes]
    by_cases valid : hours ≤ 23
    · simp only [valid, show minutes ≤ 59 by omega, and_self, if_true]
    · simp only [valid, false_and, if_false]
  · have long : ¬(Text.decimal hours).length ≤ 2 := fun short =>
      fits ((Nat.length_toDigits_le_iff (by decide) (by decide)).mp short)
    have digits : ∀ c ∈ Text.zeroPadded 2 hours, c.isDigit = true := fun _ => zeroPadded_isDigit
    have unpadded : Text.zeroPadded 2 hours = Text.decimal hours := by
      change List.replicate _ _ ++ Text.decimal hours = _
      rw [show 2 - (Text.decimal hours).length = 0 by omega, List.replicate_zero, List.nil_append]
    rw [unpadded] at digits ⊢
    obtain ⟨first, second, third, others, shape⟩ :
        ∃ a b c others, Text.decimal hours = a :: b :: c :: others := by
      match decimal : Text.decimal hours with
      | a :: b :: c :: others => exact ⟨a, b, c, others, rfl⟩
      | [] | [_] | [_, _] => simp [decimal] at long
    rw [shape] at digits ⊢
    have two : ∀ c ∈ [first, second], c.isDigit = true := by
      intro c member
      apply digits
      rw [List.mem_cons, List.mem_singleton] at member
      rcases member with rfl | rfl <;> simp
    have notColon : third ∉ [':'] := by
      rw [List.mem_singleton]
      rintro rfl
      exact absurd (digits ':' (by simp)) (by decide)
    have readTwo := readDigits_append (third :: (others ++ ':' :: Text.zeroPadded 2 minutes))
      (show [first, second].length = 2 from rfl) two
    simp only [List.cons_append, List.nil_append] at readTwo ⊢
    rw [readTwo, if_neg (by omega)]
    simp only [Option.bind_eq_bind, Option.bind_some, expect, if_neg notColon, Option.bind_none]

/-- The printed offset, in minutes, when its hours have two digits below 24. -/
theorem readOffset_displayOffset (offsetSeconds : Int) :
    readOffset (displayOffset offsetSeconds) =
      if offsetSeconds.natAbs < 86400 then
        some (offsetSeconds.sign * (offsetSeconds.natAbs / 60 : Nat), [])
      else none := by
  by_cases utc : offsetSeconds = 0
  · subst offsetSeconds
    rfl
  · have minutes := readHourMinute_zeroPadded (offsetSeconds.natAbs / 3600)
      (show offsetSeconds.natAbs % 3600 / 60 < 60 by omega)
    rw [displayOffset, if_neg utc, readOffset]
    by_cases day : offsetSeconds.natAbs < 86400
    · rw [if_pos (show offsetSeconds.natAbs / 3600 ≤ 23 by omega)] at minutes
      rcases Int.lt_trichotomy offsetSeconds 0 with west | zero | east
      · simp only [west, if_true, minutes, day, Int.sign_eq_neg_one_of_neg west]
        simp
        omega
      · exact absurd zero utc
      · simp only [Int.not_lt.mpr (Int.le_of_lt east), if_false, minutes, day,
          Int.sign_eq_one_of_pos east]
        simp
        omega
    · rw [if_neg (show ¬offsetSeconds.natAbs / 3600 ≤ 23 by omega)] at minutes
      rw [if_neg day, minutes]
      by_cases west : offsetSeconds < 0
      · rw [if_pos west]
        rfl
      · rw [if_neg west]
        rfl

/-! ## The whole rendering -/

theorem readDate_zeroPadded {date : Date} (rest : Text) (nonneg : 0 ≤ date.year)
    (fourDigits : date.year ≤ 9999) :
    readDate (Text.zeroPadded 4 date.year ++ '-' :: (Text.zeroPadded 2 date.month ++
      '-' :: (Text.zeroPadded 2 date.day ++ rest))) = some (date, rest) := by
  obtain ⟨year, month, day, monthValid, dayValid⟩ := date
  obtain ⟨year, rfl⟩ := Int.eq_ofNat_of_zero_le nonneg
  have monthLength := monthLength_le year month
  have dash (text : Text) : expect ['-'] ('-' :: text) = some text := rfl
  unfold readDate
  rw [readDigits_zeroPadded _ (by decide) (show year < 10 ^ 4 by dsimp only at fourDigits; omega)]
  simp only [Option.bind_eq_bind, Option.bind_some, dash]
  rw [readDigits_zeroPadded _ (by decide) (show month < 10 ^ 2 by omega)]
  simp only [Option.bind_some, dash]
  rw [readDigits_zeroPadded _ (by decide) (show day < 10 ^ 2 by omega)]
  simp only [Option.bind_some]
  exact dif_pos ⟨monthValid, dayValid⟩

/-- The fields of a rendering from left to right. -/
theorem display_eq (ts : Timestamp) :
    ts.display = Text.zeroPadded 4 ts.year ++ '-' :: (Text.zeroPadded 2 ts.month ++
      '-' :: (Text.zeroPadded 2 ts.day ++ 'T' :: (Text.zeroPadded 2 ts.hour ++
        ':' :: (Text.zeroPadded 2 ts.minute ++ ':' :: (Text.zeroPadded 2 ts.second ++
          '.' :: (Text.zeroPadded 6 ts.microsecond ++ displayOffset ts.offsetSeconds)))))) := by
  simp [display, displayOffset]

/-- The reader finds the printed fields, and then the offset. -/
theorem read_display {ts : Timestamp} {date : Date} (onDate : ts.OnDate date)
    (nonneg : 0 ≤ ts.year) (fourDigits : ts.year ≤ 9999) (hour : ts.hour < 24)
    (minute : ts.minute < 60) (second : ts.second < 60) (microsecond : ts.microsecond < 1000000) :
    Rfc3339.read ts.display = (readOffset (displayOffset ts.offsetSeconds)).bind fun (offset, rest) =>
      if rest = [] then
        some ⟨date, ts.hour, ts.minute, ts.second, (ts.microsecond, 6), offset,
          Nat.le_of_lt_succ hour, Nat.le_of_lt_succ minute, Nat.le_of_lt second⟩
      else none := by
  obtain ⟨yearEq, monthEq, dayEq⟩ := onDate
  have shape := ts.display_eq
  rw [yearEq, monthEq, dayEq] at shape
  have colon (text : Text) : expect [':'] (':' :: text) = some text := rfl
  have letter (text : Text) : expect ['T', 't'] ('T' :: text) = some text := rfl
  have fractionLength := length_zeroPadded (show 0 < 6 by decide)
    (show ts.microsecond < 10 ^ 6 by omega)
  have nonempty : Text.zeroPadded 6 ts.microsecond ≠ [] := List.ne_nil_of_length_pos (by omega)
  have fraction := readFraction_append nonempty (fun _ => zeroPadded_isDigit)
    (head_displayOffset ts.offsetSeconds)
  rw [fractionLength, ofDigitChars_zeroPadded] at fraction
  unfold Rfc3339.read
  rw [shape, readDate_zeroPadded _ (by omega) (by omega)]
  simp only [Option.bind_eq_bind, Option.bind_some, letter]
  rw [readDigits_zeroPadded _ (by decide) (show ts.hour < 10 ^ 2 by omega)]
  simp only [Option.bind_some, colon]
  rw [readDigits_zeroPadded _ (by decide) (show ts.minute < 10 ^ 2 by omega)]
  simp only [Option.bind_some, colon]
  rw [readDigits_zeroPadded _ (by decide) (show ts.second < 10 ^ 2 by omega)]
  simp only [Option.bind_some, fraction]
  apply congrArg
  funext ⟨offset, rest⟩
  by_cases whole : rest = []
  · simp only [whole, if_true]
    exact dif_pos ⟨by omega, by omega, by omega, trivial⟩
  · simp only [whole, if_false]
    exact dif_neg fun valid => valid.2.2.2

/-- What the rendering of an instant denotes: the fraction of a minute that the
offset has is not printed, and an offset of a day or more cannot be read. -/
theorem instant_display_now {unixMicros offsetSeconds : Int}
    (first : firstDay 1970 0 * 86400000000 ≤ unixMicros + offsetSeconds * 1000000)
    (last : unixMicros + offsetSeconds * 1000000 < firstDay 1970 10000 * 86400000000) :
    (Rfc3339.read (now unixMicros offsetSeconds).display).map DateTime.instant =
      if offsetSeconds.natAbs < 86400 then
        some ((unixMicros : ℚ) / 1000000 +
          (offsetSeconds - offsetSeconds.sign * (offsetSeconds.natAbs / 60 : Nat) * 60 : Int))
      else none := by
  obtain ⟨date, onDate, nonneg, fourDigits, days⟩ :=
    exists_onDate offsetSeconds first last (by decide) (by decide)
  obtain ⟨hour, minute, second, microsecond, time⟩ :=
    fromUnixMicros_timeOfDay (unixMicros + offsetSeconds * 1000000) offsetSeconds
  change Option.map _ (Rfc3339.read
    (fromUnixMicros (unixMicros + offsetSeconds * 1000000) offsetSeconds).display) = _
  have offset :
      (fromUnixMicros (unixMicros + offsetSeconds * 1000000) offsetSeconds).offsetSeconds =
        offsetSeconds := rfl
  generalize fromUnixMicros (unixMicros + offsetSeconds * 1000000) offsetSeconds = ts at *
  have yearEq := onDate.1
  rw [read_display onDate (by omega) (by omega) hour minute second microsecond, offset,
    readOffset_displayOffset]
  by_cases day : offsetSeconds.natAbs < 86400
  · have counted : date.daysSince 1970 * 86400000000 + ts.timeOfDay =
        unixMicros + offsetSeconds * 1000000 := by omega
    unfold timeOfDay at counted
    have countedCast := congrArg (Int.cast : Int → ℚ) counted
    simp only [day, if_true, Option.bind_some, Option.map_some, DateTime.instant]
    push_cast at countedCast ⊢
    congr 1
    linarith
  · simp only [day, if_false, Option.bind_none, Option.map_none]

/-- A rendered timestamp denotes its instant exactly when the offset is a whole
number of minutes and less than a day. -/
theorem display_denotes_iff {unixMicros offsetSeconds : Int}
    (first : firstDay 1970 0 * 86400000000 ≤ unixMicros + offsetSeconds * 1000000)
    (last : unixMicros + offsetSeconds * 1000000 < firstDay 1970 10000 * 86400000000) :
    (Rfc3339.read (now unixMicros offsetSeconds).display).map DateTime.instant =
        some ((unixMicros : ℚ) / 1000000) ↔
      60 ∣ offsetSeconds ∧ offsetSeconds.natAbs < 86400 := by
  rw [instant_display_now first last]
  by_cases day : offsetSeconds.natAbs < 86400
  · have unprinted :
        offsetSeconds - offsetSeconds.sign * (offsetSeconds.natAbs / 60 : Nat) * 60 = 0 ↔
        60 ∣ offsetSeconds := by
      rcases Int.lt_trichotomy offsetSeconds 0 with west | zero | east
      · rw [Int.sign_eq_neg_one_of_neg west]
        omega
      · rw [zero]
        decide
      · rw [Int.sign_eq_one_of_pos east]
        omega
    simp only [day, if_true, and_true, Option.some.injEq, add_eq_left, Int.cast_eq_zero, unprinted]
  · simp [day]

/-- Half past five hours east of UTC. -/
theorem display_denotes_iff_kolkata :
    (Rfc3339.read (now 1786596540123456 19800).display).map DateTime.instant =
        some (((1786596540123456 : Int) : ℚ) / 1000000) ↔
      60 ∣ (19800 : Int) ∧ (19800 : Int).natAbs < 86400 :=
  display_denotes_iff (by rw [firstDay_eq_sub]; decide) (by rw [firstDay_eq_sub]; decide)

/-- The builder takes every `i32` as an offset; the epoch shifted by half a minute
is printed as `1970-01-01T00:00:30.000000+00:00`. -/
theorem not_display_denotes :
    ¬∀ unixMicros offsetSeconds : Int,
      -2147483648 ≤ offsetSeconds → offsetSeconds ≤ 2147483647 →
      firstDay 1970 0 * 86400000000 ≤ unixMicros + offsetSeconds * 1000000 →
      unixMicros + offsetSeconds * 1000000 < firstDay 1970 10000 * 86400000000 →
      (Rfc3339.read (now unixMicros offsetSeconds).display).map DateTime.instant =
        some ((unixMicros : ℚ) / 1000000) := by
  intro denotes
  have atEpoch := denotes 0 30 (by decide) (by decide)
    (by rw [firstDay_eq_sub]; decide) (by rw [firstDay_eq_sub]; decide)
  have rendered : (Rfc3339.read (now 0 30).display).map DateTime.instant = some 30 := by
    decide +kernel
  rw [rendered] at atEpoch
  exact absurd atEpoch (by decide +kernel)

end XosLog.Timestamp
