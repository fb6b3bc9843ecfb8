import XosLog.Json.Stream

/-!
# Integer fields keep their values

The conversions into a field value agree on what an `i64` holds.  Beyond it a
`u64` is kept as a string of its digits, while a `usize` wraps to a negative
number.
-/

namespace XosLog

theorem toInt_toInt64 (value : UInt64) :
    value.toInt64.toInt = (value.toNat : Int).bmod (2 ^ 64) := by
  have same : value.toInt64 = Int64.ofNat value.toNat := by
    rw [← UInt64.toInt64_ofNat', UInt64.ofNat_toNat]
  rw [same]
  exact Int64.toInt_ofNat'

/-- The cast of a `u64` to an `i64` keeps the lower half and wraps the upper one. -/
theorem toInt_toInt64_cases (value : UInt64) :
    value.toInt64.toInt =
      if value.toNat < 2 ^ 63 then (value.toNat : Int) else value.toNat - 2 ^ 64 := by
  have bound := value.toNat_lt
  rw [toInt_toInt64, Int.bmod_def]
  split_ifs <;> omega

/-- The integers that their conversion does not change: all but the `usize`
values beyond `i64::MAX`. -/
def Integer.Kept : Integer → Prop
  | .usize value => value.toNat < 2 ^ 63
  | _ => True

namespace FieldValue

theorem ofNarrow_eq {value : Nat} (narrow : value < 2 ^ 32) : ofNarrow value = .int value := by
  have small : value < 2 ^ 63 := Nat.lt_trans narrow (by decide)
  rw [ofNarrow, ofI64, Int64.toInt_ofNat_of_lt small]

theorem ofU64_eq (value : UInt64) :
    ofU64 value =
      if value.toNat < 2 ^ 63 then .int value.toNat else .str (Text.decimal value.toNat) := by
  unfold ofU64 tryFromU64
  by_cases small : value.toNat < 2 ^ 63
  · simp only [if_pos small, ofI64, toInt_toInt64_cases]
  · simp only [if_neg small]

theorem ofUsize_eq (value : UInt64) :
    ofUsize value =
      .int (if value.toNat < 2 ^ 63 then (value.toNat : Int) else value.toNat - 2 ^ 64) := by
  rw [ofUsize, ofI64, toInt_toInt64_cases]

/-- A conversion keeps the number, as an `i64` or as its digits. -/
theorem ofInteger_kept {integer : Integer} (kept : integer.Kept) :
    ofInteger integer = .int integer.toInt ∨
      ofInteger integer = .str (Text.signedDecimal integer.toInt) := by
  cases integer with
  | i8 value => exact Or.inl (congrArg FieldValue.int value.toInt_toInt64)
  | i16 value => exact Or.inl (congrArg FieldValue.int value.toInt_toInt64)
  | i32 value => exact Or.inl (congrArg FieldValue.int value.toInt_toInt64)
  | i64 value => exact Or.inl rfl
  | isize value => exact Or.inl rfl
  | u8 value => exact Or.inl (ofNarrow_eq (Nat.lt_trans value.toNat_lt (by decide)))
  | u16 value => exact Or.inl (ofNarrow_eq (Nat.lt_trans value.toNat_lt (by decide)))
  | u32 value => exact Or.inl (ofNarrow_eq value.toNat_lt)
  | u64 value =>
      rw [ofInteger, ofU64_eq]
      by_cases small : value.toNat < 2 ^ 63
      · exact Or.inl (if_pos small)
      · exact Or.inr (if_neg small)
  | usize value =>
      have small : value.toNat < 2 ^ 63 := kept
      left
      rw [ofInteger, ofUsize_eq, if_pos small]
      rfl

/-- A conversion that changes the number wraps it. -/
theorem ofInteger_wrapped {integer : Integer} (wraps : ¬ integer.Kept) :
    ofInteger integer = .int (integer.toInt - 2 ^ 64) := by
  cases integer with
  | usize value =>
      have large : ¬ value.toNat < 2 ^ 63 := wraps
      rw [ofInteger, ofUsize_eq, if_neg large]
      rfl
  | _ => exact absurd trivial wraps

end FieldValue

namespace Json

open Rfc8259 (Json)

/-- A JSON value for an integer: a number equal to it, or its decimal digits. -/
def DenotesInt (json : Json) (n : Int) : Prop :=
  json.int? = some n ∨ json = .string (Text.signedDecimal n)

/-- What `push_value` appends for an integer is a JSON value for it. -/
def WritesInt (displayF64 : F64 → Text) (out : Text) (integer : Integer) : Prop :=
  ∃ text json, pushValue displayF64 out (.ofInteger integer) = out ++ text ∧
    Rfc8259.parse text = some json ∧ DenotesInt json integer.toInt

section

variable (displayF64 : F64 → Text)

theorem parse_pushValue_int (i : Int) :
    Rfc8259.parse (pushValue displayF64 [] (.int i)) = some (.number (Text.signedDecimal i)) :=
  Rfc8259.parse_of_readsAs (Rfc8259.readsAs_number (isNumber_signedDecimal i))

theorem parse_pushValue_str (s : Text) :
    Rfc8259.parse (pushValue displayF64 [] (.str s)) = some (.string s) :=
  Rfc8259.parse_of_readsAs (Rfc8259.readsAs_string (Rfc8259.bodyOf_flatMap escapes_escapeChar s))

theorem kept_of_writesInt {out : Text} {integer : Integer}
    (writes : WritesInt displayF64 out integer) : integer.Kept := by
  obtain ⟨text, json, written, parsed, denotes⟩ := writes
  by_contra wraps
  rw [pushValue_eq, FieldValue.ofInteger_wrapped wraps] at written
  obtain rfl := List.append_cancel_left written
  rw [parse_pushValue_int] at parsed
  obtain rfl := Option.some.inj parsed
  rcases denotes with number | string
  · have wrapped := Option.some.inj ((int?_signedDecimal _).symm.trans number)
    omega
  · contradiction

theorem writesInt_of_kept (out : Text) {integer : Integer} (kept : integer.Kept) :
    WritesInt displayF64 out integer := by
  rcases FieldValue.ofInteger_kept kept with number | string
  · refine ⟨_, _, pushValue_eq displayF64 out _, ?_, Or.inl (int?_signedDecimal _)⟩
    rw [number]
    exact parse_pushValue_int displayF64 integer.toInt
  · refine ⟨_, _, pushValue_eq displayF64 out _, ?_, Or.inr rfl⟩
    rw [string]
    exact parse_pushValue_str displayF64 _

/-- An integer field keeps its value exactly when it is not a `usize` beyond
`i64::MAX`. -/
theorem writesInt_iff (out : Text) (integer : Integer) :
    WritesInt displayF64 out integer ↔ integer.Kept := by
  constructor
  · exact kept_of_writesInt displayF64
  · exact writesInt_of_kept displayF64 out

end

/-- The largest `usize` is written as -1. -/
theorem usize_max_wraps :
    pushValue sampleDisplay [] (.ofInteger (.usize (.ofNat (2 ^ 64 - 1)))) = "-1".toList ∧
      ¬ ∀ displayF64 out integer, WritesInt displayF64 out integer := by
  constructor
  · decide
  · intro always
    have small : (UInt64.ofNat (2 ^ 64 - 1)).toNat < 2 ^ 63 := kept_of_writesInt sampleDisplay
      (always sampleDisplay [] (.usize (.ofNat (2 ^ 64 - 1))))
    exact absurd small (by decide)

end Json

end XosLog
