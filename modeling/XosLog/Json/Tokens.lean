import XosLog.Json.Record
import XosLog.Rfc8259.Tokens

/-!
# The tokens of a record line

Digits, level names and timestamps stand for themselves inside a JSON string,
the escapes of `push_string` are undone by reading, and every integer is
written as a number token with its own value.
-/

namespace XosLog.Json

open Rfc8259 (Json Escapes)

/-! ## Digits and other characters that are written as they are -/

theorem mem_decimal_isDigit {n : Nat} {c : Char} (member : c ∈ Text.decimal n) :
    c.isDigit = true :=
  Nat.isDigit_of_mem_toDigits (by decide) (by decide) member

theorem isDigit_iff_toNat (c : Char) : c.isDigit = true ↔ 48 ≤ c.toNat ∧ c.toNat ≤ 57 := by
  simp only [Char.isDigit, Bool.and_eq_true, decide_eq_true_eq, ge_iff_le, UInt32.le_iff_toNat_le]
  rfl

/-- The characters that have a short escape, with its letter. -/
def shortEscapes : List (Char × Char) :=
  [('"', '"'), ('\\', '\\'), ('\n', 'n'), ('\r', 'r'), ('\t', 't'), ('\x08', 'b'), ('\x0c', 'f')]

theorem escapeChar_short :
    ∀ short ∈ shortEscapes, escapeChar short.1 = ['\\', short.2] := by
  decide

theorem escapeChar_long {c : Char} (long : ∀ short ∈ shortEscapes, c ≠ short.1) :
    escapeChar c =
      if Text.isControl c then "\\u".toList ++ Text.zeroPaddedHex 4 c.toNat else [c] := by
  simp only [shortEscapes, List.forall_mem_cons] at long
  obtain ⟨quote, backslash, newline, carriage, tab, backspace, formFeed, _⟩ := long
  rw [escapeChar, if_neg quote, if_neg backslash, if_neg newline, if_neg carriage, if_neg tab,
    if_neg backspace, if_neg formFeed]

/-- A character has a short escape, is a control character or stands for itself. -/
theorem escapeChar_cases (c : Char) :
    (∃ letter, (c, letter) ∈ shortEscapes ∧ escapeChar c = ['\\', letter]) ∨
    (∀ short ∈ shortEscapes, c ≠ short.1) ∧
      (Text.isControl c = true ∧
          escapeChar c = "\\u".toList ++ Text.zeroPaddedHex 4 c.toNat ∨
        Text.isControl c = false ∧ escapeChar c = [c]) := by
  by_cases isShort : ∃ short ∈ shortEscapes, c = short.1
  · obtain ⟨short, member, rfl⟩ := isShort
    exact Or.inl ⟨short.2, member, escapeChar_short short member⟩
  · have long : ∀ short ∈ shortEscapes, c ≠ short.1 :=
      fun short member same => isShort ⟨short, member, same⟩
    refine Or.inr ⟨long, ?_⟩
    rw [escapeChar_long long]
    cases control : Text.isControl c with
    | true => exact Or.inl ⟨rfl, if_pos rfl⟩
    | false => exact Or.inr ⟨rfl, if_neg Bool.false_ne_true⟩

theorem escapeChar_of_isDigit {c : Char} (digit : c.isDigit = true) : escapeChar c = [c] := by
  have bounds := (isDigit_iff_toNat c).mp digit
  have notDigits : ∀ short ∈ shortEscapes, short.1.isDigit = false := by decide
  have printable : Text.isControl c = false := by
    simp only [Text.isControl, Bool.or_eq_false_iff, Bool.and_eq_false_iff, decide_eq_false_iff_not]
    omega
  rcases escapeChar_cases c with ⟨letter, member, _⟩ | ⟨_, ⟨control, _⟩ | ⟨_, same⟩⟩
  · rw [notDigits _ member] at digit
    contradiction
  · rw [printable] at control
    contradiction
  · exact same

/-- A string whose characters all stand for themselves. -/
def IsRaw (text : Text) : Prop :=
  ∀ c ∈ text, escapeChar c = [c]

instance (text : Text) : Decidable (IsRaw text) :=
  List.decidableBAll (fun c => escapeChar c = [c]) text

theorem IsRaw.append {first second : Text} (firstRaw : IsRaw first) (secondRaw : IsRaw second) :
    IsRaw (first ++ second) :=
  List.forall_mem_append.mpr ⟨firstRaw, secondRaw⟩

theorem IsRaw.cons {c : Char} {text : Text} (headRaw : escapeChar c = [c]) (tailRaw : IsRaw text) :
    IsRaw (c :: text) :=
  List.forall_mem_cons.mpr ⟨headRaw, tailRaw⟩

theorem IsRaw.flatMap_escapeChar {text : Text} (raw : IsRaw text) :
    text.flatMap escapeChar = text := by
  induction text with
  | nil => rfl
  | cons c text ih =>
      rw [List.flatMap_cons, raw c List.mem_cons_self,
        ih fun d member => raw d (List.mem_cons_of_mem c member)]
      rfl

theorem isRaw_decimal (n : Nat) : IsRaw (Text.decimal n) :=
  fun _ member => escapeChar_of_isDigit (mem_decimal_isDigit member)

theorem isRaw_zeros (n : Nat) : IsRaw (List.replicate n '0') := by
  intro c member
  rw [List.eq_of_mem_replicate member]
  decide

theorem isRaw_zeroPadded (width : Nat) (n : Int) : IsRaw (Text.zeroPadded width n) := by
  cases n with
  | ofNat n => exact (isRaw_zeros _).append (isRaw_decimal n)
  | negSucc n => exact ((isRaw_zeros _).append (isRaw_decimal _)).cons (by decide)

theorem isRaw_display (ts : Timestamp) : IsRaw ts.display := by
  have padded := isRaw_zeroPadded
  unfold Timestamp.display
  repeat' first
    | exact padded _ _
    | apply IsRaw.append
    | apply IsRaw.cons (by decide)
  split
  · exact fun c member => by
      rw [List.mem_singleton.mp member]
      decide
  · refine IsRaw.append (IsRaw.cons ?_ (padded _ _)) (IsRaw.cons (by decide) (padded _ _))
    split <;> decide

theorem isRaw_asStr (level : Level) : IsRaw level.asStr := by
  cases level <;> decide

/-! ## Escaping is undone by reading -/

theorem zeroPaddedHex_four {n : Nat} (small : n < 256) :
    Text.zeroPaddedHex 4 n = ['0', '0', (n / 16).digitChar, (n % 16).digitChar] := by
  unfold Text.zeroPaddedHex
  rcases Nat.lt_or_ge n 16 with single | double
  · rw [Nat.toDigits_of_lt_base single, Nat.div_eq_of_lt single, Nat.mod_eq_of_lt single]
    rfl
  · rw [Nat.toDigits_of_base_le (by decide) double, Nat.toDigits_of_lt_base (by omega)]
    rfl

theorem hexValue_digitChar : ∀ d < 16, Rfc8259.hexValue d.digitChar = some d := by
  decide

theorem isControl_toNat_lt {c : Char} (control : Text.isControl c = true) : c.toNat < 160 := by
  simp only [Text.isControl, Bool.or_eq_true, Bool.and_eq_true, decide_eq_true_eq] at control
  omega

theorem readEscape_control {c : Char} (control : Text.isControl c = true) (rest : Text) :
    Rfc8259.readEscape ('u' :: Text.zeroPaddedHex 4 c.toNat ++ rest) = some (c, rest) := by
  have small := isControl_toNat_lt control
  have high := hexValue_digitChar (c.toNat / 16) (by omega)
  have low := hexValue_digitChar (c.toNat % 16) (by omega)
  have zero : Rfc8259.hexValue '0' = some 0 := by decide
  have unit_eq : 0 * 4096 + 0 * 256 + c.toNat / 16 * 16 + c.toNat % 16 = c.toNat := by omega
  have hex : Rfc8259.readHex (Text.zeroPaddedHex 4 c.toNat ++ rest) = some (c.toNat, rest) := by
    rw [zeroPaddedHex_four (by omega)]
    simp only [Rfc8259.readHex, List.cons_append, List.nil_append, zero, high, low,
      Option.bind_eq_bind, Option.bind_some, unit_eq]
  rw [List.cons_append, Rfc8259.readEscape]
  simp only [Char.reduceEq, or_self, if_false, if_true, Rfc8259.readUnicode, hex]
  rw [if_pos (Or.inl (by omega)), Char.ofNat_toNat]

theorem readEscape_short (rest : Text) :
    ∀ short ∈ shortEscapes, Rfc8259.readEscape (short.2 :: rest) = some (short.1, rest) := by
  simp only [shortEscapes, List.forall_mem_cons]
  exact ⟨rfl, rfl, rfl, rfl, rfl, rfl, rfl, nofun⟩

/-- The escapes of `push_string` are read back character by character. -/
theorem escapes_escapeChar : Escapes escapeChar := by
  intro c
  rcases escapeChar_cases c with ⟨letter, member, same⟩ | ⟨long, ⟨control, same⟩ | ⟨plain, same⟩⟩
  · rw [same]
    exact ⟨List.cons_ne_nil _ _, fun fuel rest =>
      Rfc8259.readChars_escape fuel (readEscape_short rest _ member)⟩
  · rw [same]
    exact ⟨List.cons_ne_nil _ _, fun fuel rest =>
      Rfc8259.readChars_escape fuel (readEscape_control control rest)⟩
  · have printable : 0x20 ≤ c.toNat := by
      simp only [Text.isControl, Bool.or_eq_false_iff, decide_eq_false_iff_not] at plain
      omega
    have quote := long ('"', '"') (by decide)
    have backslash := long ('\\', '\\') (by decide)
    rw [same]
    exact ⟨List.cons_ne_nil _ _, fun fuel rest => Rfc8259.readChars_plain
      (by simp [Rfc8259.isPlain, quote, backslash, printable]) fuel rest⟩

/-! ## Integers as number tokens -/

/-- The rendering of a positive number starts with a non-zero digit. -/
theorem decimal_pos {n : Nat} (positive : 0 < n) :
    ∃ c tail, Text.decimal n = c :: tail ∧ c ≠ '0' := by
  induction n using Nat.strong_induction_on with
  | _ n ih =>
      rcases Nat.lt_or_ge n 10 with single | multiple
      · refine ⟨n.digitChar, [], Nat.toDigits_of_lt_base single, ?_⟩
        have nonzero : ∀ d < 10, 0 < d → d.digitChar ≠ '0' := by decide
        exact nonzero n single positive
      · obtain ⟨c, tail, digits_eq, nonzero⟩ := ih (n / 10) (by omega) (by omega)
        refine ⟨c, tail ++ [(n % 10).digitChar], ?_, nonzero⟩
        rw [Text.decimal, Nat.toDigits_of_base_le (by decide) multiple]
        exact congrArg (· ++ [(n % 10).digitChar]) digits_eq

theorem head_decimal (n : Nat) : (Text.decimal n).head? ≠ some '-' := by
  intro head
  exact absurd (mem_decimal_isDigit (List.mem_of_mem_head? head)) (by decide)

theorem isNumber_decimal (n : Nat) : Rfc8259.isNumber (Text.decimal n) = true := by
  rcases Nat.eq_zero_or_pos n with rfl | positive
  · decide
  · rw [Rfc8259.isNumber, Rfc8259.dropMinus_of_head (head_decimal n)]
    obtain ⟨c, tail, digits_eq, nonzero⟩ := decimal_pos positive
    have digits : ∀ d ∈ c :: tail, d.isDigit = true := by
      rw [← digits_eq]
      exact fun d => mem_decimal_isDigit
    have tail_eq : tail.dropWhile Char.isDigit = [] :=
      List.dropWhile_eq_nil_iff.mpr fun d member => digits d (List.mem_cons_of_mem c member)
    have integer : Rfc8259.dropInteger (c :: tail) = some [] := by
      unfold Rfc8259.dropInteger
      split
      · rename_i equal
        exact absurd (List.cons.inj equal).1 nonzero
      · rw [Rfc8259.dropDigits, if_pos (digits c List.mem_cons_self), tail_eq]
    rw [digits_eq, integer]
    rfl

/-- Every integer is written as a number token. -/
theorem isNumber_signedDecimal (i : Int) : Rfc8259.isNumber (Text.signedDecimal i) = true := by
  cases i with
  | ofNat n => exact isNumber_decimal n
  | negSucc n => exact Rfc8259.isNumber_minus (head_decimal _) (isNumber_decimal _)

/-- The token of an integer has that integer as its value. -/
theorem int?_signedDecimal (i : Int) : (Json.number (Text.signedDecimal i)).int? = some i := by
  have all : ∀ n, (Text.decimal n).all Char.isDigit = true := fun n =>
    List.all_eq_true.mpr fun c => mem_decimal_isDigit
  have value : ∀ n, Nat.ofDigitChars 10 (Text.decimal n) 0 = n := fun n =>
    Nat.ofDigitChars_ten_toDigits
  cases i with
  | ofNat n =>
      simp [Text.signedDecimal, Json.int?, Rfc8259.dropMinus_of_head (head_decimal n), all, value,
        head_decimal n]
  | negSucc n =>
      simp [Text.signedDecimal, Json.int?, Rfc8259.dropMinus, all, value, Int.negSucc_eq]

end XosLog.Json
