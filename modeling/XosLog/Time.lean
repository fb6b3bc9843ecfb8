import Mathlib.Data.Int.DivMod
import XosLog.Text

/-!
# Wall-clock timestamps

The calendar conversion of the source, with the 128-bit arithmetic as integers:
`div_euclid` and `rem_euclid` are `Int.ediv` and `Int.emod`, the operators `/`
and `%` truncate toward zero, and the `as` casts wrap.
-/

namespace XosLog

/-- A broken-down wall-clock time with an explicit offset from UTC. -/
structure Timestamp where
  year : Int
  month : Nat
  day : Nat
  hour : Nat
  minute : Nat
  second : Nat
  microsecond : Nat
  offsetSeconds : Int
  deriving DecidableEq, Repr

namespace Timestamp

def microsPerSecond : Int := 1000000
def microsPerMinute : Int := 60000000
def microsPerHour : Int := 3600000000
def microsPerDay : Int := 86400000000

/-- `n as u8`. -/
def asU8 (n : Int) : Nat :=
  (n % 2 ^ 8).toNat

/-- `n as u32`. -/
def asU32 (n : Int) : Nat :=
  (n % 2 ^ 32).toNat

/-- `n as i32`. -/
def asI32 (n : Int) : Int :=
  n.bmod (2 ^ 32)

/-- Convert a count of days since the Unix epoch into a civil date. -/
def civilFromDays (days : Int) : Int × Nat × Nat :=
  let z := days + 719468
  let era := (if 0 ≤ z then z else z - 146096).tdiv 146097
  let doe := z - era * 146097
  let yoe := (doe - doe.tdiv 1460 + doe.tdiv 36524 - doe.tdiv 146096).tdiv 365
  let year := yoe + era * 400
  let doy := doe - (365 * yoe + yoe.tdiv 4 - yoe.tdiv 100)
  let mp := (5 * doy + 2).tdiv 153
  let day := asU8 (doy - (153 * mp + 2).tdiv 5 + 1)
  let month := asU8 (if mp < 10 then mp + 3 else mp - 9)
  let year := if month ≤ 2 then year + 1 else year
  (asI32 year, month, day)

/-- Decompose a signed microsecond count into calendar fields. -/
def fromUnixMicros (micros offsetSeconds : Int) : Timestamp :=
  let days := micros / microsPerDay
  let rem := micros % microsPerDay
  let hour := asU8 (rem.tdiv microsPerHour)
  let minute := asU8 ((rem.tmod microsPerHour).tdiv microsPerMinute)
  let second := asU8 ((rem.tmod microsPerMinute).tdiv microsPerSecond)
  let microsecond := asU32 (rem.tmod microsPerSecond)
  let (year, month, day) := civilFromDays days
  { year, month, day, hour, minute, second, microsecond, offsetSeconds }

/-- `unix_micros`, when the system clock is so many nanoseconds after the epoch. -/
def unixMicros (nanos : Int) : Int :=
  if 0 ≤ nanos then
    nanos / 1000000000 * microsPerSecond + nanos % 1000000000 / 1000
  else
    -((-nanos) / 1000000000) * microsPerSecond - (-nanos) % 1000000000 / 1000

/-- `Timestamp::now`, with the reading of the system clock as an argument. -/
def now (unixMicros offsetSeconds : Int) : Timestamp :=
  fromUnixMicros (unixMicros + offsetSeconds * microsPerSecond) offsetSeconds

/-- The `Display` rendering of a timestamp. -/
def display (ts : Timestamp) : Text :=
  Text.zeroPadded 4 ts.year ++ '-' :: Text.zeroPadded 2 ts.month ++
    '-' :: Text.zeroPadded 2 ts.day ++ 'T' :: Text.zeroPadded 2 ts.hour ++
    ':' :: Text.zeroPadded 2 ts.minute ++ ':' :: Text.zeroPadded 2 ts.second ++
    '.' :: Text.zeroPadded 6 ts.microsecond ++
    if ts.offsetSeconds = 0 then ['Z']
    else
      let sign := if ts.offsetSeconds < 0 then '-' else '+'
      let abs := ts.offsetSeconds.natAbs
      sign :: Text.zeroPadded 2 (abs / 3600 : Nat) ++
        ':' :: Text.zeroPadded 2 (abs % 3600 / 60 : Nat)

example : (fromUnixMicros (1786596540123456 + 19800 * 1000000) 19800).display =
    "2026-08-13T10:19:00.123456+05:30".toList := by
  decide

end Timestamp

end XosLog
