import XosLog.Rotation.Alignment
import XosLog.Time.Civil

/-!
# Slots and the calendar

The slots of a sink are found by dividing seconds, the fields of a timestamp by
the calendar conversion.  Both count the same hours and the same days, and the
weeks begin on Mondays, the first one having lost its days before the epoch.
-/

namespace XosLog.Rotation

open Gregorian

/-- An hour in nanoseconds. -/
def hourNanos : Int := 3600000000000

/-- A day in nanoseconds. -/
def dayNanos : Int := 86400000000000

/-- The timestamp of an instant, in UTC. -/
def utc (now : Instant) : Timestamp :=
  Timestamp.fromUnixMicros (Timestamp.unixMicros now) 0

/-- Two timestamps of one day. -/
def SameDate (first second : Timestamp) : Prop :=
  first.year = second.year ∧ first.month = second.month ∧ first.day = second.day

/-- Two timestamps of one hour of one day. -/
def SameHour (first second : Timestamp) : Prop :=
  SameDate first second ∧ first.hour = second.hour

/-- A Monday begins after one instant and not after another.  The days are
counted from a Thursday. -/
def MondayBetween (start stop : Int) : Prop :=
  ∃ day : Int, day % 7 = 4 ∧ start < day * dayNanos ∧ day * dayNanos ≤ stop

/-- The year of the instant is an `i32`. -/
def Representable (now : Instant) : Prop :=
  now < firstDay 1970 2147483648 * dayNanos

/-! ## The fields of a timestamp -/

section

variable {now : Int} (after : 0 ≤ now)

include after

theorem unixMicros_eq : Timestamp.unixMicros now = now / 1000 := by
  rw [Timestamp.unixMicros, if_pos after, Timestamp.microsPerSecond]
  omega

theorem unixMicros_day : Timestamp.unixMicros now / 86400000000 = now / dayNanos := by
  rw [unixMicros_eq after, Int.ediv_ediv_of_nonneg (by decide)]
  rfl

/-- The fields of the date are those of the day. -/
theorem utc_date :
    ((utc now).year, (utc now).month, (utc now).day) =
      Timestamp.civilFromDays (now / dayNanos) := by
  rw [← unixMicros_day after]
  rfl

/-- The hour is the number of hours since the day began. -/
theorem utc_hour : ((utc now).hour : Int) = now / hourNanos - now / dayNanos * 24 := by
  obtain ⟨-, minute, second, microsecond, time⟩ :=
    Timestamp.fromUnixMicros_timeOfDay (Timestamp.unixMicros now) 0
  have micros := unixMicros_eq after
  rw [Timestamp.timeOfDay] at time
  unfold hourNanos dayNanos utc
  omega

theorem exists_date (representable : Representable now) :
    ∃ date : Date, (utc now).OnDate date ∧ date.daysSince 1970 = now / dayNanos := by
  have epoch : firstDay 1970 1970 = 0 := elapsed_self yearLength 1970
  have micros := unixMicros_eq after
  have first : firstDay 1970 1970 * 86400000000 ≤ Timestamp.unixMicros now := by
    rw [epoch, Int.zero_mul, micros]
    exact Int.ediv_nonneg after (by decide)
  have last : Timestamp.unixMicros now < firstDay 1970 2147483648 * 86400000000 := by
    rw [micros]
    apply Int.ediv_lt_of_lt_mul (by decide)
    rw [Int.mul_assoc]
    exact representable
  obtain ⟨date, onDate, -, -, days⟩ :=
    Timestamp.exists_onDate 0 first last (by decide) (by decide)
  exact ⟨date, onDate, days.trans (unixMicros_day after)⟩

end

theorem day_of_hour (now : Int) : now / dayNanos = now / hourNanos / 24 := by
  rw [Int.ediv_ediv_of_nonneg (by decide)]
  rfl

section

variable {start stop : Int} (first : 0 ≤ start) (le : start ≤ stop)

include first le

/-- Timestamps have the same date when their instants are on the same day. -/
theorem sameDate_iff (representable : Representable stop) :
    SameDate (utc start) (utc stop) ↔ start / dayNanos = stop / dayNanos := by
  have second := Int.le_trans first le
  constructor
  · rintro ⟨year, month, day⟩
    obtain ⟨startDate, ⟨startYear, startMonth, startDay⟩, startDays⟩ :=
      exists_date first (Int.lt_of_le_of_lt le representable)
    obtain ⟨stopDate, ⟨stopYear, stopMonth, stopDay⟩, stopDays⟩ := exists_date second representable
    have same : startDate = stopDate := Date.eq_of_fields
      (startYear.symm.trans (year.trans stopYear)) (startMonth.symm.trans (month.trans stopMonth))
      (startDay.symm.trans (day.trans stopDay))
    rw [← startDays, ← stopDays, same]
  · intro same
    have fields := (utc_date first).trans ((congrArg _ same).trans (utc_date second).symm)
    obtain ⟨year, rest⟩ := Prod.mk.inj fields
    exact ⟨year, Prod.mk.inj rest⟩

theorem sameHour_iff (representable : Representable stop) :
    SameHour (utc start) (utc stop) ↔ start / hourNanos = stop / hourNanos := by
  have startHour := utc_hour first
  have stopHour := utc_hour (Int.le_trans first le)
  rw [SameHour, sameDate_iff first le representable]
  constructor
  · rintro ⟨day, hour⟩
    rw [hour, day, stopHour] at startHour
    exact (sub_left_inj.mp startHour).symm
  · intro hour
    have day : start / dayNanos = stop / dayNanos := by
      rw [day_of_hour, hour, ← day_of_hour]
    rw [hour, day, ← stopHour] at startHour
    exact ⟨day, Int.ofNat_inj.mp startHour⟩

end

/-! ## The slots -/

namespace RotationInterval

theorem slotStart_hourly (now : Instant) :
    hourly.slotStart now = some (unixSecs now / 3600 * 3600) :=
  rfl

theorem slotStart_daily (now : Instant) :
    daily.slotStart now = some (unixSecs now / 86400 * 86400) :=
  rfl

theorem slotStart_weekly (now : Instant) :
    weekly.slotStart now = some (isoWeekStartSecs (unixSecs now)) :=
  rfl

end RotationInterval

open RotationInterval

/-- The start of a week, in weeks from the Monday before the epoch. -/
theorem isoWeekStartSecs_eq_iff (first second : Nat) :
    isoWeekStartSecs first = isoWeekStartSecs second ↔
      (first + 259200) / 604800 = (second + 259200) / 604800 := by
  unfold isoWeekStartSecs
  dsimp only
  constructor
  · intro same
    split_ifs at same <;> omega
  · intro same
    split_ifs <;> omega

theorem isoWeekStartSecs_le (secs : Nat) : isoWeekStartSecs secs ≤ secs := by
  unfold isoWeekStartSecs
  dsimp only
  split_ifs <;> omega

theorem unixSecs_mul_le {now : Instant} (after : 0 ≤ now) :
    (unixSecs now : Int) * 1000000000 ≤ now := by
  rw [unixSecs_of_nonneg after]
  exact Int.ediv_mul_le now (by decide)

/-- No slot begins after the instants in it. -/
theorem slotStart_le {interval : RotationInterval} {now : Instant} {slot : Nat} (after : 0 ≤ now)
    (isSlot : interval.slotStart now = some slot) : (slot : Int) * 1000000000 ≤ now := by
  have begun : slot ≤ unixSecs now := by
    have periodic : ∀ {kind : RotationInterval},
        (kind.periodSecs.map fun period => unixSecs now / period * period) = some slot →
          slot ≤ unixSecs now := by
      intro kind found
      obtain ⟨period, -, rfl⟩ := Option.map_eq_some_iff.mp found
      exact Nat.div_mul_le_self _ _
    cases interval with
    | never => contradiction
    | hourly => exact @periodic .hourly isSlot
    | daily => exact @periodic .daily isSlot
    | weekly =>
        obtain rfl := Option.some.inj isSlot
        exact isoWeekStartSecs_le _
    | every duration => exact @periodic (.every duration) isSlot
  have bound := unixSecs_mul_le after
  exact Int.le_trans (Int.mul_le_mul_of_nonneg_right (Int.ofNat_le.mpr begun) (by decide)) bound

/-- Mondays lie at the multiples of a week, counted from the one before the epoch. -/
theorem mondayBetween_iff (start stop : Int) :
    MondayBetween start stop ↔
      Crosses (7 * dayNanos) (start + 3 * dayNanos) (stop + 3 * dayNanos) := by
  unfold MondayBetween Crosses dayNanos
  constructor
  · rintro ⟨day, monday, after, upTo⟩
    exact ⟨(day + 3) / 7, by omega, by omega⟩
  · rintro ⟨week, after, upTo⟩
    exact ⟨week * 7 - 3, by omega, by omega, by omega⟩

section

variable {start stop : Int} (first : 0 ≤ start) (le : start ≤ stop)

include first le

/-- Slots of a period of whole seconds. -/
theorem slot_eq_slot_iff {period : Nat} (positive : 0 < period) :
    unixSecs start / period * period = unixSecs stop / period * period ↔
      start / (period * 1000000000) = stop / (period * 1000000000) := by
  have second := Int.le_trans first le
  rw [Nat.mul_left_inj (Nat.ne_of_gt positive), ← unixSecs_div first, ← unixSecs_div second,
    Int.ofNat_inj]

theorem week_eq_week_iff :
    isoWeekStartSecs (unixSecs start) = isoWeekStartSecs (unixSecs stop) ↔
      ¬ MondayBetween start stop := by
  have second := Int.le_trans first le
  have weeks : ∀ {now : Int}, 0 ≤ now →
      (((unixSecs now + 259200) / 604800 : Nat) : Int) =
        (now + 3 * dayNanos) / (7 * dayNanos) := by
    intro now after
    have secs := unixSecs_of_nonneg after
    unfold dayNanos
    omega
  have order : (start + 3 * dayNanos) / (7 * dayNanos) ≤ (stop + 3 * dayNanos) / (7 * dayNanos) :=
    Int.ediv_le_ediv (by decide) (Int.add_le_add_right le _)
  rw [isoWeekStartSecs_eq_iff, mondayBetween_iff, crosses_iff (by decide), Int.not_lt,
    ← weeks first, ← weeks second, Int.ofNat_le, ← Int.ofNat_inj]
  rw [← weeks first, ← weeks second, Int.ofNat_le] at order
  exact ⟨fun same => by omega, fun before => by omega⟩

end

/-- Slots agree with the calendar.  Two instants are in one hourly slot when
their timestamps have the same date and hour, in one daily slot when they have
the same date, and in one weekly slot when no Monday begins between them; slots
begin before their instants and in their order. -/
theorem slots_agree_with_calendar {start stop : Instant} (first : 0 ≤ start) (le : start ≤ stop)
    (representable : Representable stop) :
    (hourly.slotStart start = hourly.slotStart stop ↔ SameHour (utc start) (utc stop)) ∧
      (daily.slotStart start = daily.slotStart stop ↔ SameDate (utc start) (utc stop)) ∧
      (weekly.slotStart start = weekly.slotStart stop ↔ ¬ MondayBetween start stop) ∧
      ∀ interval ∈ [hourly, daily, weekly], ∃ slot later,
        interval.slotStart start = some slot ∧ interval.slotStart stop = some later ∧
        (slot : Int) * 1000000000 ≤ start ∧ (later : Int) * 1000000000 ≤ stop ∧
        slot ≤ later := by
  refine ⟨?_, ?_, ?_, ?_⟩
  · rw [slotStart_hourly, slotStart_hourly, Option.some_inj, sameHour_iff first le representable,
      slot_eq_slot_iff first le (by decide)]
    rfl
  · rw [slotStart_daily, slotStart_daily, Option.some_inj, sameDate_iff first le representable,
      slot_eq_slot_iff first le (by decide)]
    rfl
  · rw [slotStart_weekly, slotStart_weekly, Option.some_inj, week_eq_week_iff first le]
  · intro interval member
    have enabled : interval.slotStart start ≠ none := by
      simp only [List.mem_cons, List.not_mem_nil, or_false] at member
      rcases member with rfl | rfl | rfl <;> exact Option.some_ne_none _
    rcases interval.slotStart_mono le with ⟨none, -⟩ | ⟨slot, later, isSlot, isLater, order⟩
    · exact absurd none enabled
    · exact ⟨slot, later, isSlot, isLater, slotStart_le first isSlot,
        slotStart_le (Int.le_trans first le) isLater, order⟩

/-- The last nanosecond of the first week, and the Monday after it. -/
theorem slots_agree_with_calendar_firstMonday :
    (hourly.slotStart 345599999999999 = hourly.slotStart 345600000000000 ↔
        SameHour (utc 345599999999999) (utc 345600000000000)) ∧
      (daily.slotStart 345599999999999 = daily.slotStart 345600000000000 ↔
        SameDate (utc 345599999999999) (utc 345600000000000)) ∧
      (weekly.slotStart 345599999999999 = weekly.slotStart 345600000000000 ↔
        ¬ MondayBetween 345599999999999 345600000000000) := by
  have representable : Representable 345600000000000 := by
    rw [Representable, firstDay_eq_sub]
    decide
  obtain ⟨hours, days, weeks, -⟩ :=
    @slots_agree_with_calendar 345599999999999 345600000000000 (by decide) (by decide) representable
  exact ⟨hours, days, weeks⟩

end XosLog.Rotation
