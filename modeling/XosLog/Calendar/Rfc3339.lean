import Mathlib.Algebra.Order.Field.Rat
import XosLog.Calendar.Gregorian

/-!
# A reader for RFC 3339 date-times

An executable reader for the `date-time` production: a calendar date, a time of
day with an optional fraction of a second, and the offset of these local fields
from UTC.  A date-time denotes an instant, in seconds since the epoch.
-/

namespace Rfc3339

/-- A well-formed date-time. -/
structure DateTime where
  date : Gregorian.Date
  hour : Nat
  minute : Nat
  second : Nat
  /-- The digits of the fraction as a number, and how many there are. -/
  fraction : Nat × Nat
  /-- The offset of the local fields from UTC, in minutes. -/
  offset : Int
  hour_valid : hour ≤ 23
  minute_valid : minute ≤ 59
  second_valid : second ≤ 60

/-- The instant of a date-time: the local fields less the offset. -/
def DateTime.instant (dateTime : DateTime) : ℚ :=
  (dateTime.date.daysSince 1970 * 86400 + dateTime.hour * 3600 + dateTime.minute * 60 +
    dateTime.second - dateTime.offset * 60 : Int) +
    (dateTime.fraction.1 : ℚ) / 10 ^ dateTime.fraction.2

/-! ## The productions -/

/-- `nDIGIT` -/
def readDigits (count : Nat) (text : List Char) : Option (Nat × List Char) :=
  let digits := text.take count
  if digits.length = count ∧ digits.all Char.isDigit = true then
    some (Nat.ofDigitChars 10 digits 0, text.drop count)
  else none

theorem readDigits_append {count : Nat} {digits : List Char} (rest : List Char)
    (length : digits.length = count) (all : ∀ c ∈ digits, c.isDigit = true) :
    readDigits count (digits ++ rest) = some (Nat.ofDigitChars 10 digits 0, rest) := by
  have taken : (digits ++ rest).take count = digits := List.take_left' length
  have dropped : (digits ++ rest).drop count = rest := List.drop_left' length
  have allDigits : digits.all Char.isDigit = true := List.all_eq_true.mpr all
  simp [readDigits, taken, dropped, length, allDigits]

/-- One character out of several. -/
def expect (allowed : List Char) : List Char → Option (List Char)
  | [] => none
  | c :: rest => if c ∈ allowed then some rest else none

/-- `full-date` -/
def readDate (text : List Char) : Option (Gregorian.Date × List Char) := do
  let (year, text) ← readDigits 4 text
  let text ← expect ['-'] text
  let (month, text) ← readDigits 2 text
  let text ← expect ['-'] text
  let (day, text) ← readDigits 2 text
  if valid : (1 ≤ month ∧ month ≤ 12) ∧ 1 ≤ day ∧ day ≤ Gregorian.monthLength year month then
    some (⟨year, month, day, valid.1, valid.2⟩, text)
  else none

/-- `[time-secfrac]` -/
def readFraction : List Char → Option ((Nat × Nat) × List Char)
  | '.' :: text =>
      let digits := text.takeWhile Char.isDigit
      if digits = [] then none
      else some ((Nat.ofDigitChars 10 digits 0, digits.length), text.dropWhile Char.isDigit)
  | text => some ((0, 0), text)

theorem readFraction_append {digits rest : List Char} (nonempty : digits ≠ [])
    (all : ∀ c ∈ digits, c.isDigit = true) (stops : ∀ c ∈ rest.head?, c.isDigit = false) :
    readFraction ('.' :: (digits ++ rest)) =
      some ((Nat.ofDigitChars 10 digits 0, digits.length), rest) := by
  have taken : (digits ++ rest).takeWhile Char.isDigit = digits := by
    rw [List.takeWhile_append_of_pos all]
    cases rest with
    | nil => simp
    | cons c rest => simp [stops c rfl]
  have dropped : (digits ++ rest).dropWhile Char.isDigit = rest := by
    rw [List.dropWhile_append_of_pos all]
    cases rest with
    | nil => simp
    | cons c rest => simp [stops c rfl]
  simp [readFraction, taken, dropped, nonempty]

/-- `time-hour ":" time-minute`, in minutes. -/
def readHourMinute (text : List Char) : Option (Nat × List Char) := do
  let (hour, text) ← readDigits 2 text
  let text ← expect [':'] text
  let (minute, text) ← readDigits 2 text
  if hour ≤ 23 ∧ minute ≤ 59 then some (hour * 60 + minute, text) else none

/-- `time-offset`, in minutes. -/
def readOffset : List Char → Option (Int × List Char)
  | [] => none
  | c :: text =>
      if c ∈ ['Z', 'z'] then some (0, text)
      else if c = '+' then (readHourMinute text).map fun (minutes, rest) => ((minutes : Int), rest)
      else if c = '-' then (readHourMinute text).map fun (minutes, rest) => (-(minutes : Int), rest)
      else none

/-- `date-time`, and nothing after it. -/
def read (text : List Char) : Option DateTime := do
  let (date, text) ← readDate text
  let text ← expect ['T', 't'] text
  let (hour, text) ← readDigits 2 text
  let text ← expect [':'] text
  let (minute, text) ← readDigits 2 text
  let text ← expect [':'] text
  let (second, text) ← readDigits 2 text
  let (fraction, text) ← readFraction text
  let (offset, text) ← readOffset text
  if valid : hour ≤ 23 ∧ minute ≤ 59 ∧ second ≤ 60 ∧ text = [] then
    some ⟨date, hour, minute, second, fraction, offset, valid.1, valid.2.1, valid.2.2.1⟩
  else none

example : (read "2026-08-13T10:19:00.5+05:30".toList).map DateTime.instant =
    some (1786596540 + 1 / 2) := by
  decide +kernel

end Rfc3339
