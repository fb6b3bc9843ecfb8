import Mathlib.Tactic.IntervalCases
import XosLog.Calendar.Gregorian
import XosLog.Time

/-!
# The calendar conversion is exact

`civil_from_days` counts days from the first of March of the year 0 in eras of
400 years.  Within an era the year is found by one division whose corrections
are checked at the two ends of each year; the count is monotone, so every day
in between gets the same year.
-/

namespace XosLog.Timestamp

open Gregorian

/-! ## Casts and truncating division on the values that occur -/

theorem asU8_of_eq {n : Int} {m : Nat} (eq : n = m) (small : m < 256) : asU8 n = m := by
  unfold asU8
  omega

theorem asU32_of_eq {n : Int} {m : Nat} (eq : n = m) (small : m < 4294967296) : asU32 n = m := by
  unfold asU32
  omega

theorem asI32_eq {n : Int} (lower : -2147483648 ≤ n) (upper : n < 2147483648) : asI32 n = n :=
  Int.bmod_eq_of_le (by omega) (by omega)

/-- The era is the floor of the quotient, for days before the year 0 too. -/
theorem era_eq_ediv (z : Int) :
    (if 0 ≤ z then z else z - 146096).tdiv 146097 = z / 146097 := by
  split
  · case isTrue nonneg => exact Int.tdiv_eq_ediv_of_nonneg nonneg
  · case isFalse negative =>
      have sign : Int.sign 146097 = 1 := rfl
      rw [Int.tdiv_eq_ediv, sign]
      split <;> omega

/-! ## The year of a day in its era -/

/-- Days of an era up to a day, without the leap days. -/
def unleapedDays (dayOfEra : Int) : Int :=
  dayOfEra - dayOfEra / 1460 + dayOfEra / 36524 - dayOfEra / 146096

theorem unleapedDays_mono {first second : Int} (le : first ≤ second) :
    unleapedDays first ≤ unleapedDays second := by
  unfold unleapedDays
  omega

/-- At the first day of each year of an era. -/
theorem le_unleapedDays_first : ∀ year : Fin 400,
    365 * (year : Int) ≤ unleapedDays (marchDays year) := by
  decide +kernel

/-- At the last day of each year of an era. -/
theorem unleapedDays_last_lt : ∀ year : Fin 400,
    unleapedDays (marchDays (year + 1) - 1) < 365 * ((year : Int) + 1) := by
  decide +kernel

theorem yearOfEra_bounds {dayOfEra : Int} (lower : 0 ≤ dayOfEra) (upper : dayOfEra < 146097) :
    0 ≤ unleapedDays dayOfEra / 365 ∧ unleapedDays dayOfEra / 365 < 400 := by
  have first : unleapedDays 0 ≤ unleapedDays dayOfEra := unleapedDays_mono lower
  have last : unleapedDays dayOfEra ≤ unleapedDays 146096 := unleapedDays_mono (by omega)
  have atFirst : unleapedDays 0 = 0 := rfl
  have atLast : unleapedDays 146096 = 145999 := rfl
  omega

/-- The year of the era contains the day. -/
theorem marchDays_yearOfEra {dayOfEra : Int} (lower : 0 ≤ dayOfEra) (upper : dayOfEra < 146097) :
    marchDays (unleapedDays dayOfEra / 365) ≤ dayOfEra ∧
      dayOfEra < marchDays (unleapedDays dayOfEra / 365 + 1) := by
  obtain ⟨nonneg, small⟩ := yearOfEra_bounds lower upper
  obtain ⟨year, yearEq⟩ := Int.eq_ofNat_of_zero_le nonneg
  constructor
  · by_contra! before
    -- The day would lie before the last day of the previous year.
    cases year with
    | zero => simp [yearEq, marchDays] at before; omega
    | succ previous =>
        have last := unleapedDays_last_lt ⟨previous, by omega⟩
        have := unleapedDays_mono (show dayOfEra ≤ marchDays (previous + 1) - 1 by
          rw [yearEq] at before; push_cast at before; omega)
        simp only at last
        omega
  · by_contra! after
    by_cases next : year + 1 < 400
    · have first := le_unleapedDays_first ⟨year + 1, next⟩
      have := unleapedDays_mono (show marchDays (year + 1) ≤ dayOfEra by
        rw [yearEq] at after; exact after)
      simp only [Nat.cast_add, Nat.cast_one] at first
      omega
    · have : year = 399 := by omega
      subst year
      rw [yearEq] at after
      simp [marchDays] at after
      omega

theorem marchDays_add_era (year era : Int) :
    marchDays (year + era * 400) = marchDays year + 146097 * era := by
  unfold marchDays
  omega

/-! ## The month of a day in its year -/

/-- Lengths of the months from March to December. -/
theorem monthLength_fromMarch (year : Int) {month : Nat} (early : month < 10) :
    (153 * month + 2) / 5 + monthLength year (month + 3) = (153 * (month + 1) + 2) / 5 := by
  interval_cases month <;> rfl

theorem daysBeforeMonth_fromMarch (year : Int) {month : Nat} (early : month < 10) :
    daysBeforeMonth year (month + 3) = daysBeforeMonth year 3 + (153 * month + 2) / 5 := by
  induction month with
  | zero => rfl
  | succ month inductionHypothesis =>
      have before := inductionHypothesis (by omega)
      have length := monthLength_fromMarch year (show month < 10 by omega)
      have next : daysBeforeMonth year (month + 1 + 3) =
          daysBeforeMonth year (month + 3) + monthLength year (month + 3) := rfl
      omega

/-- The date of a day of a year that begins in March. -/
theorem exists_date_of_marchDay {year : Int} {dayOfYear month : Nat}
    (inYear : dayOfYear < yearLength (year + 1)) (monthEq : month = (5 * dayOfYear + 2) / 153) :
    ∃ date : Date, date.year = (if month < 10 then year else year + 1) ∧
      date.month = (if month < 10 then month + 3 else month - 9) ∧
      date.day = dayOfYear - (153 * month + 2) / 5 + 1 ∧
      date.daysSince 1970 = marchDays year + dayOfYear - 719468 := by
  have epoch : marchDays (1970 - 1) = 719162 := rfl
  by_cases early : month < 10
  · have length := monthLength_fromMarch year early
    have before := daysBeforeMonth_fromMarch year early
    have march := firstDay_add_daysBeforeMonth_march 1970 year
    refine ⟨⟨year, month + 3, dayOfYear - (153 * month + 2) / 5 + 1, by omega, by omega⟩, ?_⟩
    simp only [Date.daysSince, Date.dayOfYear, before, early, if_true, true_and]
    omega
  · have first := firstDay_eq_sub 1970 (year + 1)
    rw [Int.add_sub_cancel, epoch] at first
    have length := monthLength_february (year + 1)
    have short : yearLength (year + 1) ≤ 366 := yearLength_le (year + 1)
    have winter : month = 10 ∨ month = 11 := by omega
    rcases winter with january | february
    · have day : 1 ≤ dayOfYear - 305 ∧ dayOfYear - 305 ≤ monthLength (year + 1) 1 := by
        change _ ∧ _ ≤ 31
        omega
      have before : daysBeforeMonth (year + 1) 1 = 0 := rfl
      refine ⟨⟨year + 1, 1, dayOfYear - 305, by omega, day⟩, ?_⟩
      simp only [if_neg early, Date.daysSince, Date.dayOfYear, before, true_and]
      omega
    · have day : 1 ≤ dayOfYear - 336 ∧ dayOfYear - 336 ≤ monthLength (year + 1) 2 := by omega
      have before : daysBeforeMonth (year + 1) 2 = 31 := rfl
      refine ⟨⟨year + 1, 2, dayOfYear - 336, by omega, day⟩, ?_⟩
      simp only [if_neg early, Date.daysSince, Date.dayOfYear, before, true_and]
      omega

/-! ## The algorithm of the source -/

/-- Every day has a date, and the source finds it, with the year as an `i32`. -/
theorem civilFromDays_exact (days : Int) :
    ∃ date : Date, date.daysSince 1970 = days ∧
      civilFromDays days = (asI32 date.year, date.month, date.day) := by
  obtain ⟨era, eraEq⟩ : ∃ era, (days + 719468) / 146097 = era := ⟨_, rfl⟩
  obtain ⟨dayOfEra, dayOfEraEq⟩ : ∃ day, days + 719468 - era * 146097 = day := ⟨_, rfl⟩
  have lower : 0 ≤ dayOfEra := by omega
  have upper : dayOfEra < 146097 := by omega
  obtain ⟨nonneg, small⟩ := yearOfEra_bounds lower upper
  obtain ⟨first, last⟩ := marchDays_yearOfEra lower upper
  obtain ⟨yearOfEra, yearOfEraEq⟩ : ∃ year, unleapedDays dayOfEra / 365 = year := ⟨_, rfl⟩
  rw [yearOfEraEq] at nonneg small first last
  have march : marchDays yearOfEra = 365 * yearOfEra + yearOfEra / 4 - yearOfEra / 100 := by
    unfold marchDays
    omega
  obtain ⟨dayOfYear, dayOfYearEq⟩ := Int.eq_ofNat_of_zero_le (Int.sub_nonneg.mpr first)
  have inYear : dayOfYear < yearLength (yearOfEra + era * 400 + 1) := by
    have ofYear := marchDays_add_one (yearOfEra + era * 400)
    have ofEra := marchDays_add_era yearOfEra era
    have ofNext := marchDays_add_era (yearOfEra + 1) era
    rw [show yearOfEra + 1 + era * 400 = yearOfEra + era * 400 + 1 by omega] at ofNext
    omega
  obtain ⟨date, yearEq, monthEq, dayEq, daysEq⟩ := exists_date_of_marchDay inYear rfl
  apply Exists.intro date
  constructor
  · rw [daysEq, marchDays_add_era]
    omega
  -- The truncating divisions of the source have nonnegative dividends here.
  have sourceYear : (dayOfEra - dayOfEra.tdiv 1460 + dayOfEra.tdiv 36524 -
      dayOfEra.tdiv 146096).tdiv 365 = yearOfEra := by
    rw [Int.tdiv_eq_ediv_of_nonneg lower, Int.tdiv_eq_ediv_of_nonneg lower,
      Int.tdiv_eq_ediv_of_nonneg lower, Int.tdiv_eq_ediv_of_nonneg (by omega)]
    exact yearOfEraEq
  have sourceDay : dayOfEra - (365 * yearOfEra + yearOfEra.tdiv 4 - yearOfEra.tdiv 100) =
      dayOfYear := by
    rw [Int.tdiv_eq_ediv_of_nonneg nonneg, Int.tdiv_eq_ediv_of_nonneg nonneg, ← march]
    exact dayOfYearEq
  have sourceMonth : (5 * (dayOfYear : Int) + 2).tdiv 153 =
      ((5 * dayOfYear + 2) / 153 : Nat) := by
    rw [Int.tdiv_eq_ediv_of_nonneg (by omega)]
    omega
  have short := yearLength_le (yearOfEra + era * 400 + 1)
  have late : (5 * dayOfYear + 2) / 153 < 12 := by omega
  generalize monthDef : (5 * dayOfYear + 2) / 153 = month at *
  have castMonth : asU8 (if (month : Int) < 10 then month + 3 else month - 9) = date.month := by
    apply asU8_of_eq
    · rw [monthEq]
      split <;> split <;> omega
    · have valid := date.month_valid
      omega
  have castDay : asU8 (dayOfYear - (153 * (month : Int) + 2).tdiv 5 + 1) = date.day := by
    apply asU8_of_eq
    · rw [Int.tdiv_eq_ediv_of_nonneg (by omega), dayEq]
      omega
    · omega
  have sourceDateYear : (if date.month ≤ 2 then yearOfEra + era * 400 + 1
      else yearOfEra + era * 400) = date.year := by
    rw [yearEq, monthEq]
    split <;> split <;> omega
  unfold civilFromDays
  dsimp only
  rw [era_eq_ediv, eraEq, dayOfEraEq, sourceYear, sourceDay, sourceMonth, castMonth, castDay,
    sourceDateYear]

/-- Microseconds since midnight of a timestamp's time of day. -/
def timeOfDay (ts : Timestamp) : Int :=
  ts.hour * 3600000000 + ts.minute * 60000000 + ts.second * 1000000 + ts.microsecond

/-- The fields of a timestamp name a date of the calendar. -/
def OnDate (ts : Timestamp) (date : Date) : Prop :=
  ts.year = date.year ∧ ts.month = date.month ∧ ts.day = date.day

theorem fromUnixMicros_timeOfDay (micros offsetSeconds : Int) :
    let ts := fromUnixMicros micros offsetSeconds
    ts.hour < 24 ∧ ts.minute < 60 ∧ ts.second < 60 ∧ ts.microsecond < 1000000 ∧
      ts.timeOfDay = micros % 86400000000 := by
  intro ts
  have nonneg : 0 ≤ micros % microsPerDay := Int.emod_nonneg micros (by decide)
  have below : micros % microsPerDay < 86400000000 := Int.emod_lt_of_pos micros (by decide)
  obtain ⟨rem, remEq⟩ := Int.eq_ofNat_of_zero_le nonneg
  have tdivEq (n d : Nat) : ((n : Int).tdiv d) = (n / d : Nat) := rfl
  have tmodEq (n d : Nat) : ((n : Int).tmod d) = (n % d : Nat) := rfl
  have hour : ts.hour = rem / 3600000000 := by
    apply asU8_of_eq
    · rw [remEq]
      exact tdivEq rem 3600000000
    · omega
  have minute : ts.minute = rem % 3600000000 / 60000000 := by
    apply asU8_of_eq
    · rw [remEq]
      exact tdivEq (rem % 3600000000) 60000000
    · omega
  have second : ts.second = rem % 60000000 / 1000000 := by
    apply asU8_of_eq
    · rw [remEq]
      exact tdivEq (rem % 60000000) 1000000
    · omega
  have microsecond : ts.microsecond = rem % 1000000 := by
    apply asU32_of_eq
    · rw [remEq]
      exact tmodEq rem 1000000
    · omega
  have remDef : micros % 86400000000 = rem := remEq
  rw [timeOfDay, hour, minute, second, microsecond, remDef]
  omega

/-- The fields name the date of the day, in the years that an `i32` holds. -/
theorem exists_onDate {micros lower upper : Int} (offsetSeconds : Int)
    (first : firstDay 1970 lower * 86400000000 ≤ micros)
    (last : micros < firstDay 1970 upper * 86400000000)
    (lowest : -2147483648 ≤ lower) (highest : upper ≤ 2147483648) :
    ∃ date : Date, (fromUnixMicros micros offsetSeconds).OnDate date ∧
      lower ≤ date.year ∧ date.year < upper ∧
      date.daysSince 1970 = micros / 86400000000 := by
  obtain ⟨date, days, fields⟩ := civilFromDays_exact (micros / 86400000000)
  have notBefore : lower ≤ date.year := Date.le_year 1970 (by omega)
  have notAfter : date.year < upper := Date.year_lt 1970 (by omega)
  have yearField : (fromUnixMicros micros offsetSeconds).year =
    (civilFromDays (micros / 86400000000)).1 := rfl
  have monthField : (fromUnixMicros micros offsetSeconds).month =
    (civilFromDays (micros / 86400000000)).2.1 := rfl
  have dayField : (fromUnixMicros micros offsetSeconds).day =
    (civilFromDays (micros / 86400000000)).2.2 := rfl
  rw [fields] at yearField monthField dayField
  rw [asI32_eq (by omega) (by omega)] at yearField
  exact ⟨date, ⟨yearField, monthField, dayField⟩, notBefore, notAfter, days⟩

/-- The calendar conversion inverts the count of days and the time of day. -/
theorem fromUnixMicros_exact (micros offsetSeconds year : Int)
    (first : firstDay 1970 year * 86400000000 ≤ micros)
    (last : micros < firstDay 1970 (year + 1) * 86400000000)
    (lower : -2147483648 ≤ year) (upper : year ≤ 2147483647) :
    let ts := fromUnixMicros micros offsetSeconds
    ∃ date : Date, ts.OnDate date ∧ ts.hour < 24 ∧ ts.minute < 60 ∧ ts.second < 60 ∧
      ts.microsecond < 1000000 ∧
      date.daysSince 1970 * 86400000000 + ts.timeOfDay = micros := by
  intro ts
  obtain ⟨date, onDate, -, -, days⟩ :=
    exists_onDate offsetSeconds first last lower (Int.add_one_le_of_lt (by omega))
  obtain ⟨hour, minute, second, microsecond, time⟩ := fromUnixMicros_timeOfDay micros offsetSeconds
  refine ⟨date, onDate, hour, minute, second, microsecond, ?_⟩
  rw [days, time]
  omega

/-- The last microsecond before the year 0. -/
theorem fromUnixMicros_exact_beforeYearZero :
    let ts := fromUnixMicros (-62167219200000001) 0
    ∃ date : Date, ts.OnDate date ∧ ts.hour < 24 ∧ ts.minute < 60 ∧ ts.second < 60 ∧
      ts.microsecond < 1000000 ∧
      date.daysSince 1970 * 86400000000 + ts.timeOfDay = -62167219200000001 :=
  fromUnixMicros_exact (-62167219200000001) 0 (-1)
    (by rw [firstDay_eq_sub]; decide) (by rw [firstDay_eq_sub]; decide) (by decide) (by decide)

end XosLog.Timestamp
