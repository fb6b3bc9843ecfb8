import Mathlib.Data.List.Infix
import Mathlib.Data.Char

/-!
# Lossy decoding of UTF-8

A decoder that replaces each maximal ill-formed sequence of bytes by U+FFFD.
It inverts the encoder of the standard library, and on an encoded text that
was cut it returns the characters that are whole, followed by one replacement
character when the cut is inside a character.
-/

namespace Utf8

/-- U+FFFD -/
def replacement : Char :=
  '\uFFFD'

/-- How many bytes follow a leading byte. -/
def trailing (lead : Nat) : Option Nat :=
  if lead ≤ 0x7F then some 0
  else if 0xC2 ≤ lead ∧ lead ≤ 0xDF then some 1
  else if 0xE0 ≤ lead ∧ lead ≤ 0xEF then some 2
  else if 0xF0 ≤ lead ∧ lead ≤ 0xF4 then some 3
  else none

/-- Bounds of the second byte: no overlong forms, surrogates or values past the
last code point. -/
def secondBounds (lead : Nat) : Nat × Nat :=
  if lead = 0xE0 then (0xA0, 0xBF)
  else if lead = 0xED then (0x80, 0x9F)
  else if lead = 0xF0 then (0x90, 0xBF)
  else if lead = 0xF4 then (0x80, 0x8F)
  else (0x80, 0xBF)

/-- The bytes, at most `count`, that continue a sequence. -/
def continuing (bounds : Nat × Nat) : Nat → List UInt8 → List UInt8
  | 0, _ => []
  | _ + 1, [] => []
  | count + 1, byte :: rest =>
      if bounds.1 ≤ byte.toNat ∧ byte.toNat ≤ bounds.2 then
        byte :: continuing (0x80, 0xBF) count rest
      else []

/-- The character of a whole sequence. -/
def decode (lead : Nat) (tail : List UInt8) : Char :=
  let payload := lead - [0x00, 0xC0, 0xE0, 0xF0].getD tail.length 0
  Char.ofNat (tail.foldl (fun value byte => value * 64 + (byte.toNat - 0x80)) payload)

/-- Decode, after `skip` bytes that belong to the sequence before. -/
def lossyFrom : Nat → List UInt8 → List Char
  | _, [] => []
  | skip + 1, _ :: rest => lossyFrom skip rest
  | 0, lead :: rest =>
      match trailing lead.toNat with
      | none => replacement :: lossyFrom 0 rest
      | some count =>
          let tail := continuing (secondBounds lead.toNat) count rest
          (if tail.length = count then decode lead.toNat tail else replacement) ::
            lossyFrom tail.length rest

/-- `String::from_utf8_lossy` -/
def fromUtf8Lossy (bytes : List UInt8) : List Char :=
  lossyFrom 0 bytes

theorem lossyFrom_append {skip : Nat} (skipped rest : List UInt8)
    (length : skipped.length = skip) : lossyFrom skip (skipped ++ rest) = lossyFrom 0 rest := by
  induction skipped generalizing skip with
  | nil =>
      subst skip
      rfl
  | cons byte skipped inductionHypothesis =>
      subst skip
      exact inductionHypothesis rfl

/-! ## One encoded character -/

/-- Every byte of `tail` continues the sequence. -/
def Continues (bounds : Nat × Nat) : List UInt8 → Prop
  | [] => True
  | byte :: tail =>
      bounds.1 ≤ byte.toNat ∧ byte.toNat ≤ bounds.2 ∧ Continues (0x80, 0xBF) tail

theorem continuing_append {bounds : Nat × Nat} {tail : List UInt8} (rest : List UInt8)
    (continues : Continues bounds tail) :
    continuing bounds tail.length (tail ++ rest) = tail := by
  induction tail generalizing bounds with
  | nil => rfl
  | cons byte tail inductionHypothesis =>
      obtain ⟨lower, upper, continues⟩ := continues
      simp [continuing, lower, upper, inductionHypothesis continues]

/-- A cut sequence continues to its cut. -/
theorem continuing_take {bounds : Nat × Nat} {tail : List UInt8} (kept : Nat)
    (continues : Continues bounds tail) :
    continuing bounds tail.length (tail.take kept) = tail.take kept := by
  induction tail generalizing bounds kept with
  | nil =>
      rw [List.take_nil]
      rfl
  | cons byte tail inductionHypothesis =>
      obtain ⟨lower, upper, continues⟩ := continues
      cases kept with
      | zero => rfl
      | succ kept => simp [continuing, lower, upper, inductionHypothesis kept continues]

/-- A leading byte and its tail stand for a character. -/
structure Encodes (c : Char) (lead : UInt8) (tail : List UInt8) : Prop where
  trailing : trailing lead.toNat = some tail.length
  continues : Continues (secondBounds lead.toNat) tail
  decoded : decode lead.toNat tail = c

theorem Continues.le {bounds : Nat × Nat} {tail : List UInt8} (continues : Continues bounds tail)
    (high : 0x80 ≤ bounds.1) : ∀ byte ∈ tail, 0x80 ≤ byte.toNat := by
  induction tail generalizing bounds with
  | nil => exact fun _ member => absurd member List.not_mem_nil
  | cons byte tail inductionHypothesis =>
      obtain ⟨lower, -, continues⟩ := continues
      intro other member
      rcases List.mem_cons.mp member with rfl | member
      · exact Nat.le_trans high lower
      · exact inductionHypothesis continues (Nat.le_refl 0x80) other member

/-- Only the last byte of an ASCII character is below 0x80. -/
theorem Encodes.last_ge {c : Char} {lead : UInt8} {tail : List UInt8}
    (encodes : Encodes c lead tail) (long : tail ≠ []) :
    ∀ byte ∈ (lead :: tail).getLast?, 0x80 ≤ byte.toNat := by
  intro byte last
  rw [List.getLast?_cons_of_ne_nil long] at last
  apply encodes.continues.le
  · unfold secondBounds
    split_ifs <;> decide
  · exact List.mem_of_getLast? last

theorem toNat_ofNat_byte {n : Nat} (small : n < 256) : (UInt8.ofNat n).toNat = n :=
  UInt8.toNat_ofNat_of_lt small

theorem scalar_bounds (c : Char) :
    c.val.toNat < 0xD800 ∨ 0xDFFF < c.val.toNat ∧ c.val.toNat < 0x110000 :=
  c.valid

/-- A continuation byte of the encoder. -/
theorem continues_cons (n : Nat) {tail : List UInt8} (continues : Continues (0x80, 0xBF) tail) :
    Continues (0x80, 0xBF) (UInt8.ofNat (n % 0x40 + 0x80) :: tail) := by
  have byte := toNat_ofNat_byte (show n % 0x40 + 0x80 < 256 by omega)
  refine ⟨?_, ?_, continues⟩
  · rw [byte]
    omega
  · rw [byte]
    change _ ≤ 0xBF
    omega

theorem encodes_one {v : Nat} (upper : v ≤ 0x7F) : Encodes (Char.ofNat v) (UInt8.ofNat v) [] := by
  have lead := toNat_ofNat_byte (show v < 256 by omega)
  refine ⟨?_, trivial, ?_⟩
  · rw [lead, trailing, if_pos upper]
    rfl
  · rw [lead]
    rfl

theorem encodes_two {v : Nat} (lower : 0x7F < v) (upper : v ≤ 0x7FF) :
    Encodes (Char.ofNat v) (UInt8.ofNat (v / 64 % 0x20 + 0xC0))
      [UInt8.ofNat (v % 0x40 + 0x80)] := by
  have lead := toNat_ofNat_byte (show v / 64 % 0x20 + 0xC0 < 256 by omega)
  have last := toNat_ofNat_byte (show v % 0x40 + 0x80 < 256 by omega)
  refine ⟨?_, ?_, ?_⟩
  · rw [lead, trailing, if_neg (by omega), if_pos (by omega)]
    rfl
  · have bounds : secondBounds (v / 64 % 0x20 + 0xC0) = (0x80, 0xBF) := by
      unfold secondBounds
      rw [if_neg (by omega), if_neg (by omega), if_neg (by omega), if_neg (by omega)]
    rw [lead, bounds]
    exact continues_cons v trivial
  · have value : (v / 64 % 0x20 + 0xC0 - 0xC0) * 64 + (v % 0x40 + 0x80 - 0x80) = v := by omega
    change Char.ofNat (((UInt8.ofNat _).toNat - 0xC0) * 64 + ((UInt8.ofNat _).toNat - 0x80)) = _
    rw [lead, last, value]

theorem encodes_three {v : Nat} (valid : v < 0xD800 ∨ 0xDFFF < v) (lower : 0x7FF < v)
    (upper : v ≤ 0xFFFF) :
    Encodes (Char.ofNat v) (UInt8.ofNat (v / 4096 % 0x10 + 0xE0))
      [UInt8.ofNat (v / 64 % 0x40 + 0x80), UInt8.ofNat (v % 0x40 + 0x80)] := by
  have lead := toNat_ofNat_byte (show v / 4096 % 0x10 + 0xE0 < 256 by omega)
  have second := toNat_ofNat_byte (show v / 64 % 0x40 + 0x80 < 256 by omega)
  have last := toNat_ofNat_byte (show v % 0x40 + 0x80 < 256 by omega)
  refine ⟨?_, ⟨?_, ?_, continues_cons v trivial⟩, ?_⟩
  · rw [lead, trailing, if_neg (by omega), if_neg (by omega), if_pos (by omega)]
    rfl
  · rw [lead, second, secondBounds]
    split_ifs <;> dsimp only <;> omega
  · rw [lead, second, secondBounds]
    split_ifs <;> dsimp only <;> omega
  · have value : ((v / 4096 % 0x10 + 0xE0 - 0xE0) * 64 + (v / 64 % 0x40 + 0x80 - 0x80)) * 64 +
        (v % 0x40 + 0x80 - 0x80) = v := by omega
    change Char.ofNat ((((UInt8.ofNat _).toNat - 0xE0) * 64 +
      ((UInt8.ofNat _).toNat - 0x80)) * 64 + ((UInt8.ofNat _).toNat - 0x80)) = _
    rw [lead, second, last, value]

theorem encodes_four {v : Nat} (lower : 0xFFFF < v) (upper : v < 0x110000) :
    Encodes (Char.ofNat v) (UInt8.ofNat (v / 262144 % 0x08 + 0xF0))
      [UInt8.ofNat (v / 4096 % 0x40 + 0x80), UInt8.ofNat (v / 64 % 0x40 + 0x80),
        UInt8.ofNat (v % 0x40 + 0x80)] := by
  have lead := toNat_ofNat_byte (show v / 262144 % 0x08 + 0xF0 < 256 by omega)
  have second := toNat_ofNat_byte (show v / 4096 % 0x40 + 0x80 < 256 by omega)
  have third := toNat_ofNat_byte (show v / 64 % 0x40 + 0x80 < 256 by omega)
  have last := toNat_ofNat_byte (show v % 0x40 + 0x80 < 256 by omega)
  refine ⟨?_, ⟨?_, ?_, continues_cons (v / 64) (continues_cons v trivial)⟩, ?_⟩
  · rw [lead, trailing, if_neg (by omega), if_neg (by omega), if_neg (by omega),
      if_pos (by omega)]
    rfl
  · rw [lead, second, secondBounds]
    split_ifs <;> dsimp only <;> omega
  · rw [lead, second, secondBounds]
    split_ifs <;> dsimp only <;> omega
  · have value : (((v / 262144 % 0x08 + 0xF0 - 0xF0) * 64 + (v / 4096 % 0x40 + 0x80 - 0x80)) * 64 +
        (v / 64 % 0x40 + 0x80 - 0x80)) * 64 + (v % 0x40 + 0x80 - 0x80) = v := by omega
    change Char.ofNat (((((UInt8.ofNat _).toNat - 0xF0) * 64 +
      ((UInt8.ofNat _).toNat - 0x80)) * 64 + ((UInt8.ofNat _).toNat - 0x80)) * 64 +
        ((UInt8.ofNat _).toNat - 0x80)) = _
    rw [lead, second, third, last, value]

/-- The encoder writes a leading byte and a tail that stand for the character. -/
theorem exists_encodes (c : Char) :
    ∃ lead tail, String.utf8EncodeChar c = lead :: tail ∧ Encodes c lead tail := by
  have valid := scalar_bounds c
  have whole : Char.ofNat c.val.toNat = c := Char.ofNat_toNat c
  unfold String.utf8EncodeChar
  dsimp only
  generalize c.val.toNat = v at *
  subst c
  split_ifs with one two three
  · exact ⟨_, _, rfl, encodes_one one⟩
  · exact ⟨_, _, rfl, encodes_two (by omega) two⟩
  · exact ⟨_, _, rfl, encodes_three (by omega) (by omega) three⟩
  · exact ⟨_, _, rfl, encodes_four (by omega) (by omega)⟩

/-! ## Encoded texts -/

theorem lossyFrom_encodes {c : Char} {lead : UInt8} {tail : List UInt8} (rest : List UInt8)
    (encodes : Encodes c lead tail) :
    lossyFrom 0 (lead :: (tail ++ rest)) = c :: lossyFrom 0 rest := by
  rw [lossyFrom, encodes.trailing]
  dsimp only
  rw [continuing_append rest encodes.continues, if_pos rfl, encodes.decoded,
    lossyFrom_append tail rest rfl]

/-- A character that is cut after its leading byte is replaced. -/
theorem lossyFrom_cut {c : Char} {lead : UInt8} {tail : List UInt8} {kept : Nat}
    (encodes : Encodes c lead tail) (cut : kept < tail.length) :
    lossyFrom 0 (lead :: tail.take kept) = [replacement] := by
  have length : (tail.take kept).length = kept := List.length_take_of_le (Nat.le_of_lt cut)
  rw [lossyFrom, encodes.trailing]
  dsimp only
  rw [continuing_take kept encodes.continues, length, if_neg (Nat.ne_of_lt cut)]
  have none := lossyFrom_append (tail.take kept) [] length
  rw [List.append_nil] at none
  rw [none]
  rfl

/-- The bytes of a text. -/
def encode (text : List Char) : List UInt8 :=
  text.flatMap String.utf8EncodeChar

theorem encode_append (first second : List Char) :
    encode (first ++ second) = encode first ++ encode second :=
  List.flatMap_append

theorem encode_cons (c : Char) (text : List Char) :
    encode (c :: text) = String.utf8EncodeChar c ++ encode text :=
  rfl

theorem lossyFrom_encode_append (text : List Char) (rest : List UInt8) :
    lossyFrom 0 (encode text ++ rest) = text ++ lossyFrom 0 rest := by
  induction text with
  | nil => rfl
  | cons c text inductionHypothesis =>
      obtain ⟨lead, tail, bytes, encodes⟩ := exists_encodes c
      rw [encode_cons, bytes, List.append_assoc, List.cons_append,
        lossyFrom_encodes _ encodes, inductionHypothesis]
      rfl

theorem fromUtf8Lossy_encode (text : List Char) : fromUtf8Lossy (encode text) = text := by
  have decoded := lossyFrom_encode_append text []
  rwa [List.append_nil, lossyFrom, List.append_nil] at decoded

/-- Whether `index` is a boundary between characters of the encoded text, or
one of its ends. -/
def isCharBoundary : List Char → Nat → Bool
  | _, 0 => true
  | [], _ + 1 => false
  | c :: text, index + 1 => c.utf8Size ≤ index + 1 && isCharBoundary text (index + 1 - c.utf8Size)

/-- An index of an encoded text is at a boundary or inside a character. -/
theorem boundary_or_inside (text : List Char) {index : Nat}
    (within : index ≤ (encode text).length) :
    (isCharBoundary text index = true ∧
        ∃ kept rest, text = kept ++ rest ∧ (encode kept).length = index) ∨
      (isCharBoundary text index = false ∧
        ∃ kept c rest, text = kept ++ c :: rest ∧ (encode kept).length < index ∧
          index < (encode kept).length + c.utf8Size) := by
  induction text generalizing index with
  | nil =>
      obtain rfl := Nat.le_zero.mp within
      exact Or.inl ⟨rfl, [], [], rfl, rfl⟩
  | cons c text inductionHypothesis =>
      cases index with
      | zero => exact Or.inl ⟨rfl, [], c :: text, rfl, rfl⟩
      | succ index =>
          rw [encode_cons, List.length_append, String.length_utf8EncodeChar] at within
          by_cases fits : c.utf8Size ≤ index + 1
          · have unfolded : isCharBoundary (c :: text) (index + 1) =
                isCharBoundary text (index + 1 - c.utf8Size) := by
              simp [isCharBoundary, fits]
            have size (kept : List Char) :
                (encode (c :: kept)).length = c.utf8Size + (encode kept).length := by
              rw [encode_cons, List.length_append, String.length_utf8EncodeChar]
            rw [unfolded]
            have shorter : index + 1 - c.utf8Size ≤ (encode text).length := by omega
            rcases inductionHypothesis shorter with
              ⟨boundary, kept, rest, shape, length⟩ |
              ⟨boundary, kept, d, rest, shape, lower, upper⟩
            · refine Or.inl ⟨boundary, c :: kept, rest, congrArg (c :: ·) shape, ?_⟩
              rw [size]
              omega
            · refine Or.inr ⟨boundary, c :: kept, d, rest, congrArg (c :: ·) shape, ?_, ?_⟩
              · rw [size]
                omega
              · rw [size]
                omega
          · refine Or.inr ⟨?_, [], c, text, rfl, Nat.succ_pos index, ?_⟩
            · simp [isCharBoundary, fits]
            · change index + 1 < 0 + c.utf8Size
              omega

/-- A text cut at a boundary. -/
theorem fromUtf8Lossy_boundary {kept rest : List Char} :
    fromUtf8Lossy ((encode (kept ++ rest)).take (encode kept).length) = kept := by
  rw [encode_append, List.take_left, fromUtf8Lossy_encode]

/-- A text cut inside a character. -/
theorem fromUtf8Lossy_inside {kept rest : List Char} {c : Char} {index : Nat}
    (lower : (encode kept).length < index) (upper : index < (encode kept).length + c.utf8Size) :
    fromUtf8Lossy ((encode (kept ++ c :: rest)).take index) = kept ++ [replacement] := by
  obtain ⟨lead, tail, bytes, encodes⟩ := exists_encodes c
  obtain ⟨kept', inside⟩ : ∃ n, index = (encode kept).length + (n + 1) :=
    ⟨index - (encode kept).length - 1, by omega⟩
  have size : tail.length + 1 = c.utf8Size := by
    rw [← String.length_utf8EncodeChar, bytes]
    rfl
  have short : kept' < tail.length := by omega
  rw [encode_append, encode_cons, bytes, inside, List.take_length_add_append, List.cons_append,
    List.take_succ_cons, List.take_append_of_le_length (Nat.le_of_lt short), fromUtf8Lossy,
    lossyFrom_encode_append, lossyFrom_cut encodes short]

example : fromUtf8Lossy [0x61, 0xE2, 0x82, 0x62, 0xFF, 0xC3, 0xA9] = "a\uFFFDb\uFFFDé".toList := by
  decide

end Utf8
