import XosLog.Level
import XosLog.Time

/-!
# Log records

Records travel from callers to the writer thread with optional structured
fields.  A 64-bit float is kept as its bit pattern; its `Display` rendering is
supplied where a record is formatted.
-/

namespace XosLog

/-- An IEEE 754 binary64 value by its bit pattern. -/
structure F64 where
  bits : UInt64
  deriving DecidableEq, Repr

namespace F64

/-- `f64::is_finite`: the exponent bits are not all ones. -/
def isFinite (f : F64) : Bool :=
  (f.bits >>> 52) &&& 0x7ff != 0x7ff

end F64

/-- A typed value carried by a structured log field. -/
inductive FieldValue
  | str (s : Text)
  | int (i : Int)
  | float (f : F64)
  | bool (b : Bool)
  | null
  deriving DecidableEq, Repr

/-! ## Integers as field values -/

/-- A value of one of the integer types of a 64-bit target. -/
inductive Integer
  | i8 (value : Int8)
  | i16 (value : Int16)
  | i32 (value : Int32)
  | i64 (value : Int64)
  | isize (value : Int64)
  | u8 (value : UInt8)
  | u16 (value : UInt16)
  | u32 (value : UInt32)
  | u64 (value : UInt64)
  | usize (value : UInt64)
  deriving DecidableEq

/-- The number that a value of an integer type is. -/
def Integer.toInt : Integer → Int
  | .i8 value => value.toInt
  | .i16 value => value.toInt
  | .i32 value => value.toInt
  | .i64 value | .isize value => value.toInt
  | .u8 value => value.toNat
  | .u16 value => value.toNat
  | .u32 value => value.toNat
  | .u64 value | .usize value => value.toNat

/-- `i64::try_from`. -/
def tryFromU64 (value : UInt64) : Option Int64 :=
  if value.toNat < 2 ^ 63 then some value.toInt64 else none

namespace FieldValue

def ofI64 (value : Int64) : FieldValue :=
  .int value.toInt

def ofI8 (value : Int8) : FieldValue :=
  ofI64 value.toInt64

def ofI16 (value : Int16) : FieldValue :=
  ofI64 value.toInt64

def ofI32 (value : Int32) : FieldValue :=
  ofI64 value.toInt64

/-- `value as i64`, which changes nothing on a 64-bit target. -/
def ofIsize (value : Int64) : FieldValue :=
  ofI64 value

/-- `i64::from` for a narrower unsigned type. -/
def ofNarrow (value : Nat) : FieldValue :=
  ofI64 (Int64.ofNat value)

def ofU8 (value : UInt8) : FieldValue :=
  ofNarrow value.toNat

def ofU16 (value : UInt16) : FieldValue :=
  ofNarrow value.toNat

def ofU32 (value : UInt32) : FieldValue :=
  ofNarrow value.toNat

/-- The full value is kept as a string when it exceeds `i64::MAX`. -/
def ofU64 (value : UInt64) : FieldValue :=
  match tryFromU64 value with
  | some v => ofI64 v
  | none => .str (Text.decimal value.toNat)

/-- `value as i64`, which wraps. -/
def ofUsize (value : UInt64) : FieldValue :=
  ofI64 value.toInt64

/-- `FieldValue::from` for the integer types. -/
def ofInteger : Integer → FieldValue
  | .i8 value => ofI8 value
  | .i16 value => ofI16 value
  | .i32 value => ofI32 value
  | .i64 value => ofI64 value
  | .isize value => ofIsize value
  | .u8 value => ofU8 value
  | .u16 value => ofU16 value
  | .u32 value => ofU32 value
  | .u64 value => ofU64 value
  | .usize value => ofUsize value

end FieldValue

/-- A single key/value pair attached to a log record. -/
structure Field where
  key : Text
  value : FieldValue
  deriving DecidableEq, Repr

/-- A single log record produced by a caller and consumed by the writer. -/
structure LogEntry where
  timestamp : Timestamp
  level : Level
  message : Text
  target : Text
  file : Text
  line : Nat
  fields : List Field
  deriving DecidableEq, Repr

namespace LogEntry

/-- Merge context fields into the record: fields already present win, the
remaining ones are appended in order. -/
def mergeContext (entry : LogEntry) : List Field → LogEntry
  | [] => entry
  | field :: context =>
      if entry.fields.any (fun existing => existing.key = field.key) then
        mergeContext entry context
      else
        mergeContext { entry with fields := entry.fields ++ [field] } context

/-- Human-readable source location; empty when none is attached. -/
def location (entry : LogEntry) : Text :=
  if entry.file.isEmpty then []
  else entry.file ++ ':' :: Text.decimal entry.line ++ " @ ".toList ++ entry.target

/-- Merging context touches nothing but the fields, and those only at the end. -/
theorem mergeContext_eq (entry : LogEntry) (context : List Field) :
    ∃ appended, entry.mergeContext context =
      { entry with fields := entry.fields ++ appended } := by
  induction context generalizing entry with
  | nil => exact ⟨[], by simp [mergeContext]⟩
  | cons field context ih =>
      unfold mergeContext
      split
      · exact ih entry
      · obtain ⟨appended, merged⟩ := ih { entry with fields := entry.fields ++ [field] }
        exact ⟨field :: appended, by simp [merged]⟩

@[simp]
theorem mergeContext_level (entry : LogEntry) (context : List Field) :
    (entry.mergeContext context).level = entry.level := by
  obtain ⟨appended, merged⟩ := entry.mergeContext_eq context
  rw [merged]

end LogEntry

end XosLog
