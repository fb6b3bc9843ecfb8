import Mathlib.Data.Int.SuccPred
import Mathlib.Tactic.ByContra
import Mathlib.Tactic.Common

/-!
# The proleptic Gregorian calendar

Dates are valid by construction.  Days are counted by summing the lengths of
the years, and then of the months, between a reference day and the date; the
closed form of the count is a consequence.
-/

namespace Gregorian

/-! ## Sums over years -/

/-- Total of `length` over `count` indices from `start` on. -/
def total (length : Int → Int) (start : Int) : Nat → Int
  | 0 => 0
  | count + 1 => total length start count + length (start + count)

@[simp]
theorem total_zero (length : Int → Int) (start : Int) : total length start 0 = 0 :=
  rfl

theorem total_succ (length : Int → Int) (start : Int) (count : Nat) :
    total length start (count + 1) = total length start count + length (start + count) :=
  rfl

/-- A total begins with its first index. -/
theorem total_succ_first (length : Int → Int) (start : Int) (count : Nat) :
    total length start (count + 1) = length start + total length (start + 1) count := by
  induction count with
  | zero => simp [total_succ]
  | succ count inductionHypothesis =>
      have index : start + (count + 1 : Nat) = start + 1 + count := by omega
      rw [total_succ, inductionHypothesis, total_succ, index, Int.add_assoc]

/-- Total of `length` from `start` up to `finish`, negative when `finish` comes
first. -/
def elapsed (length : Int → Int) (start finish : Int) : Int :=
  total length start (finish - start).toNat - total length finish (start - finish).toNat

@[simp]
theorem elapsed_self (length : Int → Int) (start : Int) : elapsed length start start = 0 := by
  simp [elapsed]

theorem elapsed_add_one (length : Int → Int) (start finish : Int) :
    elapsed length start (finish + 1) = elapsed length start finish + length finish := by
  unfold elapsed
  by_cases after : start ≤ finish
  · have next : (finish + 1 - start).toNat = (finish - start).toNat + 1 := by omega
    have last : start + (finish - start).toNat = finish := by omega
    have emptyNext : (start - (finish + 1)).toNat = 0 := by omega
    have emptyNow : (start - finish).toNat = 0 := by omega
    rw [next, emptyNext, emptyNow, total_succ, last, total_zero, total_zero]
    omega
  · have next : (start - finish).toNat = (start - (finish + 1)).toNat + 1 := by omega
    have emptyNext : (finish + 1 - start).toNat = 0 := by omega
    have emptyNow : (finish - start).toNat = 0 := by omega
    rw [next, emptyNext, emptyNow, total_succ_first, total_zero]
    omega

/-- A function that grows by `length` at each step gives every elapsed total. -/
theorem elapsed_eq_sub {length total : Int → Int}
    (grows : ∀ i, total (i + 1) = total i + length i) (start finish : Int) :
    elapsed length start finish = total finish - total start := by
  cases Int.le_total start finish with
  | inl after =>
      induction finish, after using Int.leInduction with
      | base => simp
      | succ i _ inductionHypothesis =>
          rw [elapsed_add_one, inductionHypothesis, grows]
          omega
  | inr before =>
      induction finish, before using Int.leInductionDown with
      | base => simp
      | pred i _ inductionHypothesis =>
          have last := elapsed_add_one length start (i - 1)
          have grown := grows (i - 1)
          rw [Int.sub_add_cancel] at last grown
          omega

/-! ## Years and months -/

/-- The leap-year rule. -/
def IsLeap (year : Int) : Prop :=
  4 ∣ year ∧ (¬ 100 ∣ year ∨ 400 ∣ year)

instance : DecidablePred IsLeap :=
  fun year => inferInstanceAs (Decidable (4 ∣ year ∧ (¬ 100 ∣ year ∨ 400 ∣ year)))

def yearLength (year : Int) : Int :=
  if IsLeap year then 366 else 365

theorem yearLength_le (year : Int) : yearLength year ≤ 366 := by
  unfold yearLength
  split <;> decide

/-- Length of a month of a year; there is no month of another number. -/
def monthLength (year : Int) : Nat → Nat
  | 1 | 3 | 5 | 7 | 8 | 10 | 12 => 31
  | 4 | 6 | 9 | 11 => 30
  | 2 => if IsLeap year then 29 else 28
  | _ => 0

theorem monthLength_le (year : Int) (month : Nat) : monthLength year month ≤ 31 := by
  by_cases leap : IsLeap year
  · simp only [monthLength, leap, if_true]
    split <;> decide
  · simp only [monthLength, leap, if_false]
    split <;> decide

theorem monthLength_february (year : Int) : (monthLength year 2 : Int) = yearLength year - 337 := by
  by_cases leap : IsLeap year
  · simp [monthLength, yearLength, leap]
  · simp [monthLength, yearLength, leap]

/-- Days of `year` before the first of a month. -/
def daysBeforeMonth (year : Int) : Nat → Nat
  | 0 => 0
  | month + 1 => daysBeforeMonth year month + monthLength year month

/-- First day of `year`, counted from the first day of `epoch`. -/
def firstDay (epoch year : Int) : Int :=
  elapsed yearLength epoch year

/-- Days in `year` years that begin in March, counted from the year 0. -/
def marchDays (year : Int) : Int :=
  365 * year + year / 4 - year / 100 + year / 400

theorem marchDays_add_one (year : Int) :
    marchDays (year + 1) = marchDays year + yearLength (year + 1) := by
  by_cases leap : IsLeap (year + 1)
  · rw [yearLength, if_pos leap]
    unfold IsLeap at leap
    unfold marchDays
    omega
  · rw [yearLength, if_neg leap]
    unfold IsLeap at leap
    unfold marchDays
    omega

/-- The first of January of a year, in closed form. -/
theorem firstDay_eq_sub (epoch year : Int) :
    firstDay epoch year = marchDays (year - 1) - marchDays (epoch - 1) := by
  have grows (i : Int) : marchDays (i + 1 - 1) = marchDays (i - 1) + yearLength i := by
    have next := marchDays_add_one (i - 1)
    rw [Int.sub_add_cancel] at next
    rwa [Int.add_sub_cancel]
  have counted := @elapsed_eq_sub yearLength (fun i => marchDays (i - 1)) grows epoch year
  exact counted

/-- The first of March of a year, in closed form. -/
theorem firstDay_add_daysBeforeMonth_march (epoch year : Int) :
    firstDay epoch year + daysBeforeMonth year 3 =
      marchDays year - marchDays (epoch - 1) - 306 := by
  have next := marchDays_add_one (year - 1)
  rw [Int.sub_add_cancel] at next
  have february := monthLength_february year
  have before : daysBeforeMonth year 3 = 31 + monthLength year 2 := rfl
  rw [firstDay_eq_sub, before]
  omega

theorem firstDay_add_one (epoch year : Int) :
    firstDay epoch (year + 1) = firstDay epoch year + yearLength year :=
  elapsed_add_one yearLength epoch year

theorem firstDay_le {year later : Int} (epoch : Int) (le : year ≤ later) :
    firstDay epoch year ≤ firstDay epoch later := by
  rw [firstDay_eq_sub, firstDay_eq_sub]
  unfold marchDays
  omega

/-! ## Dates -/

/-- A date of the calendar. -/
structure Date where
  year : Int
  month : Nat
  day : Nat
  month_valid : 1 ≤ month ∧ month ≤ 12
  day_valid : 1 ≤ day ∧ day ≤ monthLength year month

/-- Day of the year, from zero. -/
def Date.dayOfYear (date : Date) : Nat :=
  daysBeforeMonth date.year date.month + (date.day - 1)

/-- Days from the first day of the year `epoch` to a date. -/
def Date.daysSince (epoch : Int) (date : Date) : Int :=
  firstDay epoch date.year + date.dayOfYear

/-- A date is given by its fields. -/
theorem Date.eq_of_fields {first second : Date} (year : first.year = second.year)
    (month : first.month = second.month) (day : first.day = second.day) : first = second := by
  cases first
  cases second
  cases year
  cases month
  cases day
  rfl

theorem daysBeforeMonth_thirteen (year : Int) : daysBeforeMonth year 13 = yearLength year := by
  by_cases leap : IsLeap year
  · simp [daysBeforeMonth, monthLength, yearLength, leap]
  · simp [daysBeforeMonth, monthLength, yearLength, leap]

theorem daysBeforeMonth_le {month later : Nat} (year : Int) (le : month ≤ later) :
    daysBeforeMonth year month ≤ daysBeforeMonth year later := by
  induction le with
  | refl => exact Nat.le_refl _
  | step _ inductionHypothesis => exact Nat.le_trans inductionHypothesis (Nat.le_add_right _ _)

theorem Date.dayOfYear_lt (date : Date) : date.dayOfYear < yearLength date.year := by
  have next : daysBeforeMonth date.year (date.month + 1) =
      daysBeforeMonth date.year date.month + monthLength date.year date.month := rfl
  have inYear : daysBeforeMonth date.year (date.month + 1) ≤ daysBeforeMonth date.year 13 :=
    daysBeforeMonth_le date.year (Nat.succ_le_succ date.month_valid.2)
  have whole := daysBeforeMonth_thirteen date.year
  have valid := date.day_valid
  unfold dayOfYear
  omega

theorem Date.le_year {year : Int} {date : Date} (epoch : Int)
    (first : firstDay epoch year ≤ date.daysSince epoch) : year ≤ date.year := by
  by_contra! before
  have later := firstDay_le epoch (show date.year + 1 ≤ year from before)
  have next := firstDay_add_one epoch date.year
  have inYear := date.dayOfYear_lt
  unfold daysSince at first
  omega

theorem Date.year_lt {year : Int} {date : Date} (epoch : Int)
    (last : date.daysSince epoch < firstDay epoch year) : date.year < year := by
  by_contra! after
  have earlier := firstDay_le epoch after
  unfold daysSince at last
  omega

/-- Earlier days have earlier dates: by year, then month, then day. -/
theorem Date.lex_of_daysSince_lt {first second : Date} {epoch : Int}
    (before : first.daysSince epoch < second.daysSince epoch) :
    first.year < second.year ∨ first.year = second.year ∧
      (first.month < second.month ∨ first.month = second.month ∧ first.day < second.day) := by
  rcases Int.lt_trichotomy first.year second.year with earlier | same | later
  · exact Or.inl earlier
  · refine Or.inr ⟨same, ?_⟩
    have inYear : first.dayOfYear < second.dayOfYear := by
      unfold daysSince at before
      rw [same] at before
      omega
    have valid := first.day_valid
    have validSecond := second.day_valid
    unfold dayOfYear at inYear
    rw [same] at inYear valid
    rcases Nat.lt_trichotomy first.month second.month with early | sameMonth | late
    · exact Or.inl early
    · refine Or.inr ⟨sameMonth, ?_⟩
      rw [sameMonth] at inYear
      omega
    · have months := daysBeforeMonth_le second.year (show second.month + 1 ≤ first.month from late)
      have next : daysBeforeMonth second.year (second.month + 1) =
          daysBeforeMonth second.year second.month + monthLength second.year second.month := rfl
      omega
  · have years := firstDay_le epoch (Int.add_one_le_of_lt later)
    have next := firstDay_add_one epoch second.year
    have inYear := second.dayOfYear_lt
    unfold daysSince at before
    omega

end Gregorian
