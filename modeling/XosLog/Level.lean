import Mathlib.Order.Defs.LinearOrder
import Mathlib.Order.Basic
import XosLog.Text

/-!
# Severity levels

The ordering is the declaration order of the source enumeration,
`Trace < Debug < Info < Warn < Error < Off`.
-/

namespace XosLog

/-- Severity levels supported by the logger. -/
inductive Level
  | trace
  | debug
  | info
  | warn
  | error
  | off
  deriving DecidableEq, Repr

namespace Level

/-- The `repr(u8)` discriminant. -/
def rank : Level → Nat
  | trace => 0
  | debug => 1
  | info => 2
  | warn => 3
  | error => 4
  | off => 5

theorem rank_injective : Function.Injective rank := by
  intro first second equal
  cases first <;> cases second <;> first | rfl | exact absurd equal (by decide)

instance : LinearOrder Level :=
  LinearOrder.lift' rank rank_injective

/-- The canonical uppercase name of a level. -/
def asStr : Level → Text
  | trace => "TRACE".toList
  | debug => "DEBUG".toList
  | info => "INFO".toList
  | warn => "WARN".toList
  | error => "ERROR".toList
  | off => "OFF".toList

/-- Parse a level from its case-insensitive name. -/
def parse (input : Text) : Option Level :=
  let name := Text.toAsciiLowercase (Text.trim input)
  if name = "trace".toList then some trace
  else if name = "debug".toList then some debug
  else if name = "info".toList then some info
  else if name = "warn".toList ∨ name = "warning".toList then some warn
  else if name = "error".toList then some error
  else if name = "off".toList then some off
  else none

end Level

end XosLog
