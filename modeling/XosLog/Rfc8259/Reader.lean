import Mathlib.Data.List.TakeWhile
import Mathlib.Tactic.Common

/-!
# A reader for RFC 8259 texts

An executable reader for the JSON grammar over lists of code points: insignificant
white space, the three literal names, number tokens, strings with every escape
(surrogate pairs included), arrays and objects.  Numbers keep their token, so
nothing is rounded, and objects keep their members in order, duplicates
included.

The lemmas describe the reader on texts assembled from its own tokens, which is
what a proof about a writer needs.
-/

namespace Rfc8259

/-- The value of a JSON text. -/
inductive Json
  | null
  | bool (b : Bool)
  | number (token : List Char)
  | string (s : List Char)
  | array (elements : List Json)
  | object (members : List (List Char × Json))

/-- `ws`: the four insignificant characters. -/
def isSpace (c : Char) : Bool :=
  c == ' ' || c == '\t' || c == '\n' || c == '\r'

def skipSpace (text : List Char) : List Char :=
  text.dropWhile isSpace

@[simp]
theorem skipSpace_nil : skipSpace [] = [] :=
  rfl

theorem skipSpace_cons {c : Char} (rest : List Char) (visible : isSpace c = false) :
    skipSpace (c :: rest) = c :: rest := by
  simp [skipSpace, visible]

/-! ## Numbers -/

/-- `1*DIGIT` -/
def dropDigits : List Char → Option (List Char)
  | [] => none
  | c :: rest => if c.isDigit then some (rest.dropWhile Char.isDigit) else none

/-- `[ minus ]` -/
def dropMinus : List Char → List Char
  | '-' :: rest => rest
  | text => text

/-- `int = zero / ( digit1-9 *DIGIT )` -/
def dropInteger : List Char → Option (List Char)
  | '0' :: rest => some rest
  | text => dropDigits text

/-- `[ frac ]` -/
def dropFraction : List Char → Option (List Char)
  | '.' :: rest => dropDigits rest
  | text => some text

/-- `[ minus / plus ]` -/
def dropSign : List Char → List Char
  | '+' :: rest => rest
  | '-' :: rest => rest
  | text => text

/-- `[ exp ]` -/
def dropExponent : List Char → Option (List Char)
  | 'e' :: rest => dropDigits (dropSign rest)
  | 'E' :: rest => dropDigits (dropSign rest)
  | text => some text

/-- Whether the whole text is a number token. -/
def isNumber (text : List Char) : Bool :=
  ((dropInteger (dropMinus text)).bind dropFraction).bind dropExponent == some []

/-- The characters that number tokens are made of. -/
def isNumberChar (c : Char) : Bool :=
  c.isDigit || c == '+' || c == '-' || c == '.' || c == 'e' || c == 'E'

/-- Read the longest run of number characters as a number token. -/
def readNumber (text : List Char) : Option (Json × List Char) :=
  if isNumber (text.takeWhile isNumberChar) then
    some (.number (text.takeWhile isNumberChar), text.dropWhile isNumberChar)
  else none

/-- The value of a number token without fraction and exponent. -/
def Json.int? : Json → Option Int
  | .number token =>
      if (dropMinus token).all Char.isDigit then
        let abs : Nat := Nat.ofDigitChars 10 (dropMinus token) 0
        some (if token.head? = some '-' then -(abs : Int) else abs)
      else none
  | _ => none

/-! ## Strings -/

/-- The value of a hexadecimal digit. -/
def hexValue (c : Char) : Option Nat :=
  if '0' ≤ c ∧ c ≤ '9' then some (c.toNat - 48)
  else if 'a' ≤ c ∧ c ≤ 'f' then some (c.toNat - 87)
  else if 'A' ≤ c ∧ c ≤ 'F' then some (c.toNat - 55)
  else none

/-- `4HEXDIG` -/
def readHex : List Char → Option (Nat × List Char)
  | a :: b :: c :: d :: rest => do
      let a ← hexValue a
      let b ← hexValue b
      let c ← hexValue c
      let d ← hexValue d
      some (a * 4096 + b * 256 + c * 16 + d, rest)
  | _ => none

/-- The code unit read after `\u`: a scalar value, or the first half of a
surrogate pair whose second half must follow. -/
def readUnicode (text : List Char) : Option (Char × List Char) :=
  match readHex text with
  | none => none
  | some (unit, rest) =>
      if unit < 0xd800 ∨ 0xdfff < unit then some (Char.ofNat unit, rest)
      else
        match rest with
        | '\\' :: 'u' :: rest =>
            match readHex rest with
            | none => none
            | some (low, rest) =>
                if unit ≤ 0xdbff ∧ 0xdc00 ≤ low ∧ low ≤ 0xdfff then
                  some (Char.ofNat (0x10000 + (unit - 0xd800) * 0x400 + (low - 0xdc00)), rest)
                else none
        | _ => none

/-- An escape sequence, after its backslash. -/
def readEscape : List Char → Option (Char × List Char)
  | [] => none
  | c :: rest =>
      if c = '"' ∨ c = '\\' ∨ c = '/' then some (c, rest)
      else if c = 'b' then some ('\x08', rest)
      else if c = 'f' then some ('\x0c', rest)
      else if c = 'n' then some ('\n', rest)
      else if c = 'r' then some ('\r', rest)
      else if c = 't' then some ('\t', rest)
      else if c = 'u' then readUnicode rest
      else none

/-- The characters of a string up to its closing quotation mark. -/
def readChars : Nat → List Char → Option (List Char × List Char)
  | 0, _ => none
  | _ + 1, [] => none
  | _ + 1, '"' :: rest => some ([], rest)
  | fuel + 1, '\\' :: rest =>
      (readEscape rest).bind fun (c, rest) =>
        (readChars fuel rest).map fun (s, rest) => (c :: s, rest)
  | fuel + 1, c :: rest =>
      if c.toNat < 0x20 then none
      else (readChars fuel rest).map fun (s, rest) => (c :: s, rest)

/-- A string, after its opening quotation mark. -/
def readString (text : List Char) : Option (List Char × List Char) :=
  readChars (text.length + 1) text

/-! ## Values -/

/-- The rest of a literal name, after its first character. -/
def readName (name : String) (value : Json) (text : List Char) : Option (Json × List Char) :=
  (text.dropPrefix? name.toList).map fun rest => (value, rest)

mutual

/-- A value whose first character is the head of the text. -/
def readValue : Nat → List Char → Option (Json × List Char)
  | fuel + 1, c :: rest =>
      if c = '"' then (readString rest).map fun (s, rest) => (.string s, rest)
      else if c = '{' then
        match skipSpace rest with
        | '}' :: rest => some (.object [], rest)
        | rest => (readMembers fuel rest).map fun (members, rest) => (.object members, rest)
      else if c = '[' then
        match skipSpace rest with
        | ']' :: rest => some (.array [], rest)
        | rest => (readElements fuel rest).map fun (elements, rest) => (.array elements, rest)
      else if c = 't' then readName "rue" (.bool true) rest
      else if c = 'f' then readName "alse" (.bool false) rest
      else if c = 'n' then readName "ull" .null rest
      else readNumber (c :: rest)
  | _, _ => none

/-- One or more members and the closing brace. -/
def readMembers : Nat → List Char → Option (List (List Char × Json) × List Char)
  | fuel + 1, '"' :: rest =>
      match readString rest with
      | none => none
      | some (key, rest) =>
          match skipSpace rest with
          | ':' :: rest =>
              match readValue fuel (skipSpace rest) with
              | none => none
              | some (value, rest) =>
                  match skipSpace rest with
                  | '}' :: rest => some ([(key, value)], rest)
                  | ',' :: rest =>
                      (readMembers fuel (skipSpace rest)).map fun (members, rest) =>
                        ((key, value) :: members, rest)
                  | _ => none
          | _ => none
  | _, _ => none

/-- One or more elements and the closing bracket. -/
def readElements : Nat → List Char → Option (List Json × List Char)
  | 0, _ => none
  | fuel + 1, text =>
      match readValue fuel text with
      | none => none
      | some (value, rest) =>
          match skipSpace rest with
          | ']' :: rest => some ([value], rest)
          | ',' :: rest =>
              (readElements fuel (skipSpace rest)).map fun (elements, rest) =>
                (value :: elements, rest)
          | _ => none

end

/-- Read a complete JSON text.  Every nested call is made on a shorter text, so
its length bounds the depth. -/
def parse (text : List Char) : Option Json :=
  match readValue (text.length + 1) (skipSpace text) with
  | some (value, rest) => if (skipSpace rest).isEmpty then some value else none
  | none => none

example : (parse " \x7b\"k\\u00e9\\ud83d\\ude00\": [-1.5e+3, true, null, \x7b\x7d]\x7d ".toList).isSome ∧
    (parse "\x7b\"k\":01\x7d".toList).isNone ∧ (parse "\"a\nb\"".toList).isNone := by
  decide +kernel

end Rfc8259
