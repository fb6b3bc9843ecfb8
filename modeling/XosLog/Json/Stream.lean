import Mathlib.Data.List.Forall2
import XosLog.Json.Tokens

/-!
# The JSON stream decodes back to the records

A record line is an RFC 8259 object text whose members are the fixed members of
the record followed by its fields, each written by one uniform rule.  Escaping
keeps every string inside its quotation marks and every line free of newlines,
so splitting the stream at newlines and reading each piece gives the records
back.
-/

namespace XosLog.Json

open Rfc8259 (Json MemberOf ReadsAs BodyOf objectText memberText)

/-! ## The members of a record -/

/-- The members of a record in order: the fixed ones, then its fields. -/
def recordMembers (entry : LogEntry) (includeLocation : Bool) : List Field :=
  [⟨"ts".toList, .str entry.timestamp.display⟩, ⟨"level".toList, .str entry.level.asStr⟩,
    ⟨"msg".toList, .str entry.message⟩] ++
  (if includeLocation then
    [⟨"file".toList, .str entry.file⟩, ⟨"line".toList, .int entry.line⟩,
      ⟨"target".toList, .str entry.target⟩]
  else []) ++ entry.fields

/-- What a reader must find for a field value: strings code point for code
point, integers by value, finite floats by their rendering, and null for the
floats JSON cannot express. -/
def Reads (displayF64 : F64 → Text) : FieldValue → Json → Prop
  | .str s, json => json = .string s
  | .int i, json => json.int? = some i
  | .float f, json => json = if f.isFinite then .number (displayF64 f) else .null
  | .bool b, json => json = .bool b
  | .null, json => json = .null

/-- A member read from a line against the field it was written for. -/
def ReadsMember (displayF64 : F64 → Text) (field : Field) (member : Text × Json) : Prop :=
  member.1 = field.key ∧ Reads displayF64 field.value member.2

section

variable (displayF64 : F64 → Text)

/-- The body of the key and the text of the value of a written field. -/
def fieldText (field : Field) : Text × Text :=
  (field.key.flatMap escapeChar, pushValue displayF64 [] field.value)

theorem pushValue_eq (out : Text) (value : FieldValue) :
    pushValue displayF64 out value = out ++ pushValue displayF64 [] value := by
  cases value with
  | str s => simp only [pushValue, pushString, List.nil_append, List.append_assoc]
  | float f =>
      simp only [pushValue, List.nil_append]
      split <;> rfl
  | _ => simp only [pushValue, List.nil_append]

theorem pushField_eq (line : Text) (field : Field) :
    pushField displayF64 line field = line ++ ',' :: memberText (fieldText displayF64 field) := by
  rw [pushField, pushValue_eq]
  simp [pushString, memberText, fieldText]

theorem foldl_pushField (line : Text) (fields : List Field) :
    fields.foldl (pushField displayF64) line =
      line ++
        (fields.map (fieldText displayF64)).flatMap fun member => ',' :: memberText member := by
  induction fields generalizing line with
  | nil => simp
  | cons field fields ih => simp [ih, pushField_eq]

theorem fieldText_rawKey (key : Text) (raw : IsRaw key) (value : FieldValue) :
    fieldText displayF64 ⟨key, value⟩ = (key, pushValue displayF64 [] value) := by
  rw [fieldText, raw.flatMap_escapeChar]

theorem pushValue_rawStr {s : Text} (raw : IsRaw s) :
    pushValue displayF64 [] (.str s) = '"' :: s ++ ['"'] := by
  rw [pushValue, pushString, raw.flatMap_escapeChar]
  rfl

/-- The object text of a record, without its newline. -/
def recordText (displayF64 : F64 → Text) (entry : LogEntry) (includeLocation : Bool) : Text :=
  objectText (fieldText displayF64 ⟨"ts".toList, .str entry.timestamp.display⟩)
    ((recordMembers entry includeLocation).tail.map (fieldText displayF64))

/-- The line of a record is the object of its members, then a newline. -/
theorem recordLine_eq (entry : LogEntry) (includeLocation : Bool) :
    recordLine displayF64 entry includeLocation =
      recordText displayF64 entry includeLocation ++ ['\n'] := by
  have ts : fieldText displayF64 ⟨"ts".toList, .str entry.timestamp.display⟩ =
      ("ts".toList, '"' :: entry.timestamp.display ++ ['"']) := by
    rw [fieldText_rawKey _ _ (by decide), pushValue_rawStr _ (isRaw_display _)]
  have level : fieldText displayF64 ⟨"level".toList, .str entry.level.asStr⟩ =
      ("level".toList, '"' :: entry.level.asStr ++ ['"']) := by
    rw [fieldText_rawKey _ _ (by decide), pushValue_rawStr _ (isRaw_asStr _)]
  have msg := fieldText_rawKey displayF64 "msg".toList (by decide) (.str entry.message)
  have file := fieldText_rawKey displayF64 "file".toList (by decide) (.str entry.file)
  have line := fieldText_rawKey displayF64 "line".toList (by decide) (.int entry.line)
  have target := fieldText_rawKey displayF64 "target".toList (by decide)
    (.str entry.target)
  have lineNumber : Text.signedDecimal entry.line = Text.decimal entry.line := rfl
  cases includeLocation with
  | false =>
      rw [recordLine, foldl_pushField, recordText, recordMembers]
      simp only [List.cons_append, List.nil_append, List.tail_cons, List.map_cons, ts, level, msg]
      simp [objectText, memberText, pushString, pushValue]
  | true =>
      rw [recordLine, foldl_pushField, recordText, recordMembers]
      simp only [if_true, List.cons_append, List.nil_append, List.tail_cons, List.map_cons, ts,
        level, msg, file, line, target]
      simp [objectText, memberText, pushString, pushValue, lineNumber]

/-! ## Reading one line -/

/-- The value a reader returns for a written field value. -/
def valueJson : FieldValue → Json
  | .str s => .string s
  | .int i => .number (Text.signedDecimal i)
  | .float f => if f.isFinite then .number (displayF64 f) else .null
  | .bool b => .bool b
  | .null => .null

theorem reads_valueJson (value : FieldValue) :
    Reads displayF64 value (valueJson displayF64 value) := by
  cases value with
  | int i => exact int?_signedDecimal i
  | _ => rfl

variable {displayF64}

theorem readsAs_pushValue
    (displayNumber : ∀ f : F64, f.isFinite = true → Rfc8259.isNumber (displayF64 f) = true)
    (value : FieldValue) :
    ReadsAs (pushValue displayF64 [] value) (valueJson displayF64 value) := by
  cases value with
  | str s => exact Rfc8259.readsAs_string (Rfc8259.bodyOf_flatMap escapes_escapeChar s)
  | int i => exact Rfc8259.readsAs_number (isNumber_signedDecimal i)
  | float f =>
      simp only [pushValue, valueJson]
      split
      · rename_i finite
        exact Rfc8259.readsAs_number (displayNumber f finite)
      · exact Rfc8259.readsAs_null
  | bool b =>
      cases b
      · exact Rfc8259.readsAs_false
      · exact Rfc8259.readsAs_true
  | null => exact Rfc8259.readsAs_null

theorem memberOf_fieldText
    (displayNumber : ∀ f : F64, f.isFinite = true → Rfc8259.isNumber (displayF64 f) = true)
    (field : Field) :
    MemberOf (fieldText displayF64 field) (field.key, valueJson displayF64 field.value) :=
  ⟨Rfc8259.bodyOf_flatMap escapes_escapeChar field.key,
    readsAs_pushValue displayNumber field.value⟩

/-- The member a reader returns for a written field. -/
def memberJson (displayF64 : F64 → Text) (field : Field) : Text × Json :=
  (field.key, valueJson displayF64 field.value)

theorem parse_recordText_eq
    (displayNumber : ∀ f : F64, f.isFinite = true → Rfc8259.isNumber (displayF64 f) = true)
    (entry : LogEntry) (includeLocation : Bool) :
    Rfc8259.parse (recordText displayF64 entry includeLocation) =
      some (.object ((recordMembers entry includeLocation).map (memberJson displayF64))) := by
  have others : ∀ fields : List Field,
      List.Forall₂ MemberOf (fields.map (fieldText displayF64))
        (fields.map (memberJson displayF64)) := by
    intro fields
    rw [List.forall₂_map_left_iff, List.forall₂_map_right_iff, List.forall₂_same]
    exact fun field _ => memberOf_fieldText displayNumber field
  exact Rfc8259.parse_objectText (memberOf_fieldText displayNumber _) (others _)

/-- The line of a record is a complete object text with the record's members. -/
theorem parse_recordText
    (displayNumber : ∀ f : F64, f.isFinite = true → Rfc8259.isNumber (displayF64 f) = true)
    (entry : LogEntry) (includeLocation : Bool) :
    ∃ members, Rfc8259.parse (recordText displayF64 entry includeLocation) =
        some (.object members) ∧
      List.Forall₂ (ReadsMember displayF64) (recordMembers entry includeLocation) members := by
  refine ⟨_, parse_recordText_eq displayNumber entry includeLocation, ?_⟩
  rw [List.forall₂_map_right_iff, List.forall₂_same]
  exact fun field _ => ⟨rfl, reads_valueJson displayF64 field.value⟩

/-! ## No newline inside a line -/

theorem newline_not_mem_escapeChar (c : Char) : '\n' ∉ escapeChar c := by
  have hex : ∀ d < 16, d.digitChar ≠ '\n' := by
    intro d small same
    have value := hexValue_digitChar d small
    rw [same] at value
    contradiction
  have letters : ∀ short ∈ shortEscapes, '\n' ∉ ['\\', short.2] := by decide
  rcases escapeChar_cases c with ⟨letter, member, same⟩ | ⟨long, ⟨control, same⟩ | ⟨_, same⟩⟩
  · rw [same]
    exact letters _ member
  · have small := isControl_toNat_lt control
    rw [same, zeroPaddedHex_four (by omega)]
    have high := (hex (c.toNat / 16) (by omega)).symm
    have low := (hex (c.toNat % 16) (by omega)).symm
    simp [high, low]
  · have newline := long ('\n', 'n') (by decide)
    rw [same]
    simpa using Ne.symm newline

theorem newline_not_mem_flatMap (s : Text) : '\n' ∉ s.flatMap escapeChar := by
  simp only [List.mem_flatMap, not_exists, not_and]
  exact fun c _ => newline_not_mem_escapeChar c

theorem newline_not_mem_number {token : Text} (number : Rfc8259.isNumber token = true) :
    '\n' ∉ token := fun member =>
  absurd (Rfc8259.isNumber_forall number '\n' member) (by decide)

theorem newline_not_mem_pushValue
    (displayNumber : ∀ f : F64, f.isFinite = true → Rfc8259.isNumber (displayF64 f) = true)
    (value : FieldValue) : '\n' ∉ pushValue displayF64 [] value := by
  cases value with
  | str s => simp [pushValue, pushString, newline_not_mem_flatMap, -List.mem_flatMap]
  | int i => exact newline_not_mem_number (isNumber_signedDecimal i)
  | float f =>
      simp only [pushValue]
      split
      · rename_i finite
        exact newline_not_mem_number (displayNumber f finite)
      · decide
  | bool b => cases b <;> simp [pushValue]
  | null => simp [pushValue]

theorem newline_not_mem_recordText
    (displayNumber : ∀ f : F64, f.isFinite = true → Rfc8259.isNumber (displayF64 f) = true)
    (entry : LogEntry) (includeLocation : Bool) :
    '\n' ∉ recordText displayF64 entry includeLocation := by
  have member : ∀ field, '\n' ∉ memberText (fieldText displayF64 field) := by
    intro field
    simp [memberText, fieldText, newline_not_mem_flatMap, -List.mem_flatMap,
      newline_not_mem_pushValue displayNumber]
  have others : ∀ fields : List Field, '\n' ∉ (fields.map (fieldText displayF64)).flatMap
      fun member => ',' :: memberText member := by
    intro fields
    simp only [List.mem_flatMap, List.mem_map, not_exists, not_and]
    rintro _ ⟨field, _, rfl⟩
    simpa using member field
  simp only [recordText, objectText, List.mem_append, List.mem_cons, not_or]
  exact ⟨⟨⟨by decide, member _⟩, others _⟩, by decide⟩

end

/-! ## Newlines in UTF-8 -/

theorem newline_byte_mem_utf8EncodeChar {c : Char} (member : 10 ∈ String.utf8EncodeChar c) :
    c = '\n' := by
  have ofNat : ∀ k, (10 : UInt8) = UInt8.ofNat k ↔ k % 256 = 10 := by
    intro k
    rw [← UInt8.toNat_inj, UInt8.toNat_ofNat']
    exact eq_comm
  simp only [String.utf8EncodeChar] at member
  split_ifs at member with one two three
  all_goals simp only [List.mem_cons, List.not_mem_nil, or_false, ofNat] at member
  · rw [← Char.toNat_inj]
    change c.val.toNat = 10
    omega
  all_goals omega

/-- A newline byte in a UTF-8 text comes from a newline character. -/
theorem newline_byte_not_mem_utf8 {text : Text} (single : '\n' ∉ text) :
    10 ∉ Text.utf8 text := by
  simp only [Text.utf8, List.mem_flatMap, not_exists, not_and]
  intro c member byte
  rw [newline_byte_mem_utf8EncodeChar byte] at member
  exact single member

/-! ## The stream -/

/-- Decode a byte string as UTF-8 and read it as a JSON text. -/
def readLine (line : Bytes) : Option Json :=
  line.toByteArray.utf8Decode?.bind fun text => Rfc8259.parse text.toList

theorem readLine_utf8 (text : Text) : readLine (Text.utf8 text) = Rfc8259.parse text := by
  have encoded : (Text.utf8 text).toByteArray = text.utf8Encode := rfl
  simp [readLine, encoded]

/-- The bytes of a sequence of records written one after another. -/
def writeRecords (displayF64 : F64 → Text) (includeLocation : Bool) (entries : List LogEntry)
    (out : Bytes) : Bytes :=
  entries.foldl (fun out entry => writeRecord displayF64 entry includeLocation out) out

theorem writeRecords_eq (displayF64 : F64 → Text) (includeLocation : Bool)
    (entries : List LogEntry) (out : Bytes) :
    writeRecords displayF64 includeLocation entries out =
      out ++ entries.flatMap fun entry =>
        Text.utf8 (recordText displayF64 entry includeLocation) ++ [10] := by
  induction entries generalizing out with
  | nil => simp [writeRecords]
  | cons entry entries ih =>
      have newline : Text.utf8 ['\n'] = [10] := by decide
      change writeRecords displayF64 includeLocation entries
        (writeRecord displayF64 entry includeLocation out) = _
      rw [ih, writeRecord, recordLine_eq, Text.utf8_append, newline]
      simp

theorem splitOn_lines {α : Type*} (lineOf : α → Bytes) (xs : List α)
    (single : ∀ x, 10 ∉ lineOf x) :
    (xs.flatMap fun x => lineOf x ++ [10]).splitOn 10 = xs.map lineOf ++ [[]] := by
  induction xs with
  | nil => rfl
  | cons x xs ih =>
      rw [List.flatMap_cons, List.append_assoc, List.singleton_append,
        List.splitOn_append_cons_self, List.splitOn_eq_singleton (single x), ih]
      rfl

/-- Splitting the stream of any sequence of records at newlines gives one line
for each record (and the empty remainder after the last newline); every line is
a complete JSON object whose members are those of its record, in order. -/
theorem stream_decodes {displayF64 : F64 → Text}
    (displayNumber : ∀ f : F64, f.isFinite = true → Rfc8259.isNumber (displayF64 f) = true)
    (includeLocation : Bool) (entries : List LogEntry) :
    ∃ lines : List Bytes,
      (writeRecords displayF64 includeLocation entries []).splitOn 10 = lines ++ [[]] ∧
      List.Forall₂ (fun entry line => ∃ members, readLine line = some (.object members) ∧
        List.Forall₂ (ReadsMember displayF64) (recordMembers entry includeLocation) members)
        entries lines := by
  let lineOf (entry : LogEntry) := Text.utf8 (recordText displayF64 entry includeLocation)
  refine ⟨entries.map lineOf, ?_, ?_⟩
  · rw [writeRecords_eq, List.nil_append]
    exact splitOn_lines lineOf entries fun entry =>
      newline_byte_not_mem_utf8 (newline_not_mem_recordText displayNumber entry includeLocation)
  · rw [List.forall₂_map_right_iff, List.forall₂_same]
    intro entry _
    simp only [lineOf, readLine_utf8]
    exact parse_recordText displayNumber entry includeLocation

/-- A record with a string field, a finite float and a float without a JSON
number. -/
def sampleEntry : LogEntry where
  timestamp := Timestamp.now 1786596540123456 0
  level := .warn
  message := "say \"hi\"\n\x7f".toList
  target := "app".toList
  file := "src/main.rs".toList
  line := 7
  fields := [⟨"k\\".toList, .str "\x7d\n".toList⟩, ⟨"lat".toList, .float ⟨0x3ff8000000000000⟩⟩,
    ⟨"inf".toList, .float ⟨0x7ff0000000000000⟩⟩, ⟨"n".toList, .int (-3)⟩]

/-- `Display` on the finite float of the sample record, 1.5. -/
def sampleDisplay (f : F64) : Text :=
  if f.bits = 0x3ff8000000000000 then "1.5".toList else "0".toList

theorem isNumber_sampleDisplay (f : F64) (_finite : f.isFinite = true) :
    Rfc8259.isNumber (sampleDisplay f) = true := by
  unfold sampleDisplay
  split <;> decide

theorem stream_decodes_sample :
    ∃ lines : List Bytes,
      (writeRecords sampleDisplay true [sampleEntry, sampleEntry] []).splitOn 10 =
        lines ++ [[]] ∧
      List.Forall₂ (fun entry line => ∃ members, readLine line = some (.object members) ∧
        List.Forall₂ (ReadsMember sampleDisplay) (recordMembers entry true) members)
        [sampleEntry, sampleEntry] lines :=
  stream_decodes isNumber_sampleDisplay true [sampleEntry, sampleEntry]

end XosLog.Json
