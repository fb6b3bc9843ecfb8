import Mathlib.Data.List.DropRight
import Mathlib.Data.Nat.Digits.Defs

/-!
# Text and standard-library formatting

Strings are lists of Unicode scalar values.  The formatting directives and the
character predicates used by the crate follow the documented behaviour of the
standard library: sign-aware zero padding, lower-case hexadecimal, the Unicode
`White_Space` and `Cc` properties, and UTF-8.
-/

namespace XosLog

/-- A string as the list of its code points. -/
abbrev Text := List Char

/-- A byte string. -/
abbrev Bytes := List UInt8

namespace Text

/-- The UTF-8 bytes of a string (`str::as_bytes`). -/
def utf8 (text : Text) : Bytes :=
  text.flatMap String.utf8EncodeChar

@[simp]
theorem utf8_nil : utf8 [] = [] :=
  rfl

@[simp]
theorem utf8_cons (c : Char) (text : Text) :
    utf8 (c :: text) = String.utf8EncodeChar c ++ utf8 text :=
  rfl

@[simp]
theorem utf8_append (first second : Text) :
    utf8 (first ++ second) = utf8 first ++ utf8 second :=
  List.flatMap_append

/-- Number of UTF-8 bytes of a string (`str::len`). -/
def len (text : Text) : Nat :=
  (text.map Char.utf8Size).sum

@[simp]
theorem len_nil : len [] = 0 :=
  rfl

@[simp]
theorem len_cons (c : Char) (text : Text) : len (c :: text) = c.utf8Size + len text :=
  rfl

@[simp]
theorem len_append (first second : Text) : len (first ++ second) = len first + len second := by
  simp [len]

@[simp]
theorem length_utf8 (text : Text) : text.utf8.length = text.len := by
  induction text with
  | nil => rfl
  | cons c text inductionHypothesis => simp [inductionHypothesis]

/-- `{}` for an unsigned integer. -/
def decimal (n : Nat) : Text :=
  Nat.toDigits 10 n

/-- `{}` for a signed integer. -/
def signedDecimal : Int → Text
  | .ofNat n => decimal n
  | .negSucc n => '-' :: decimal (n + 1)

/-- `{:0width$}` for a signed integer: the padding zeros follow the sign. -/
def zeroPadded (width : Nat) : Int → Text
  | .ofNat n => List.replicate (width - (decimal n).length) '0' ++ decimal n
  | .negSucc n =>
      '-' :: (List.replicate (width - 1 - (decimal (n + 1)).length) '0' ++ decimal (n + 1))

/-- `{:width$}` for an unsigned integer. -/
def spacePadded (width n : Nat) : Text :=
  List.replicate (width - (decimal n).length) ' ' ++ decimal n

/-- `{:0width$x}` for an unsigned integer. -/
def zeroPaddedHex (width n : Nat) : Text :=
  let digits := Nat.toDigits 16 n
  List.replicate (width - digits.length) '0' ++ digits

/-- `char::is_whitespace`: the Unicode property `White_Space`. -/
def isWhitespace (c : Char) : Bool :=
  let n := c.toNat
  (0x09 ≤ n && n ≤ 0x0d) || n == 0x20 || n == 0x85 || n == 0xa0 || n == 0x1680 ||
    (0x2000 ≤ n && n ≤ 0x200a) || n == 0x2028 || n == 0x2029 || n == 0x202f ||
    n == 0x205f || n == 0x3000

/-- `char::is_control`: the general category `Cc`. -/
def isControl (c : Char) : Bool :=
  let n := c.toNat
  n ≤ 0x1f || (0x7f ≤ n && n ≤ 0x9f)

/-- `str::trim`. -/
def trim (text : Text) : Text :=
  (text.dropWhile isWhitespace).rdropWhile isWhitespace

/-- `str::to_ascii_lowercase`. -/
def toAsciiLowercase (text : Text) : Text :=
  text.map fun c => if 'A' ≤ c ∧ c ≤ 'Z' then Char.ofNat (c.toNat + 32) else c

end Text

end XosLog
