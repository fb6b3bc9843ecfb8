import XosLog.Context.Merging
import XosLog.Json.Stream

/-!
# Keys of users beside the fixed members

A record's object holds the fixed members, the record's own fields and the
fields taken over from the context.  The context is merged without duplicates
and never repeats an own field, but own fields may repeat each other, and
nothing keeps either away from the names of the fixed members.
-/

namespace XosLog.Json

open Rfc8259 (Json)
open XosLog.Context (Frame currentContext stackFields)

/-- What a parser that keeps the last of duplicate members finds. -/
def lastMember (members : List (Text × Json)) (name : Text) : Option Json :=
  (members.reverse.find? fun member => member.1 = name).map Prod.snd

theorem lastMember_of_mem {members : List (Text × Json)} {name : Text} {value : Json}
    (distinct : (members.map Prod.fst).Nodup) (member : (name, value) ∈ members) :
    lastMember members name = some value := by
  have distinctReverse : (members.reverse.map Prod.fst).Nodup := by
    rw [List.map_reverse]
    exact List.nodup_reverse.mpr distinct
  have found := Keyed.find?_of_mem Prod.fst distinctReverse (List.mem_reverse.mpr member)
  rw [lastMember, found]
  rfl

/-- The members that do not come from a user. -/
def fixedMembers (entry : LogEntry) (includeLocation : Bool) : List Field :=
  [⟨"ts".toList, .str entry.timestamp.display⟩, ⟨"level".toList, .str entry.level.asStr⟩,
    ⟨"msg".toList, .str entry.message⟩] ++
  if includeLocation then
    [⟨"file".toList, .str entry.file⟩, ⟨"line".toList, .int entry.line⟩,
      ⟨"target".toList, .str entry.target⟩]
  else []

/-- The names of the fixed members. -/
def fixedNames (includeLocation : Bool) : List Text :=
  ["ts".toList, "level".toList, "msg".toList] ++
    if includeLocation then ["file".toList, "line".toList, "target".toList] else []

theorem map_key_fixedMembers (entry : LogEntry) (includeLocation : Bool) :
    (fixedMembers entry includeLocation).map Field.key = fixedNames includeLocation := by
  cases includeLocation <;> rfl

theorem nodup_fixedNames (includeLocation : Bool) : (fixedNames includeLocation).Nodup := by
  cases includeLocation <;> decide

theorem recordMembers_eq (entry : LogEntry) (includeLocation : Bool) :
    recordMembers entry includeLocation =
      fixedMembers entry includeLocation ++ entry.fields :=
  rfl

/-- The member names are distinct, and keeping the last member of each name
gives the record's own fixed members. -/
structure Unshadowed (displayF64 : F64 → Text) (entry : LogEntry) (includeLocation : Bool)
    (members : List (Text × Json)) : Prop where
  distinct : (members.map Prod.fst).Nodup
  own : ∀ field ∈ fixedMembers entry includeLocation,
    ∃ value, lastMember members field.key = some value ∧ Reads displayF64 field.value value

/-- The explicit keys are distinct, and neither they nor the keys of the context
are names of fixed members. -/
def KeysApart (stack : List Frame) (entry : LogEntry) (includeLocation : Bool) : Prop :=
  (entry.fields.map Field.key).Nodup ∧
    ∀ name ∈ fixedNames includeLocation,
      name ∉ entry.fields.map Field.key ∧ name ∉ (stackFields stack).map Field.key

instance (stack : List Frame) (entry : LogEntry) (includeLocation : Bool) :
    Decidable (KeysApart stack entry includeLocation) :=
  inferInstanceAs (Decidable (_ ∧ _))

theorem fixedMembers_mergeContext (entry : LogEntry) (context : List Field)
    (includeLocation : Bool) :
    fixedMembers (entry.mergeContext context) includeLocation =
      fixedMembers entry includeLocation := by
  obtain ⟨appended, merged⟩ := entry.mergeContext_eq context
  rw [merged]
  rfl

theorem unshadowed_iff_nodup (displayF64 : F64 → Text) (entry : LogEntry)
    (context : List Field) (includeLocation : Bool) :
    Unshadowed displayF64 entry includeLocation
        ((recordMembers (entry.mergeContext context) includeLocation).map
          (memberJson displayF64)) ↔
      ((recordMembers (entry.mergeContext context) includeLocation).map Field.key).Nodup := by
  have names : ∀ fields : List Field,
      (fields.map (memberJson displayF64)).map Prod.fst = fields.map Field.key := by
    intro fields
    rw [List.map_map]
    rfl
  constructor
  · intro unshadowed
    exact names _ ▸ unshadowed.distinct
  · intro distinct
    rw [← names] at distinct
    refine ⟨distinct, ?_⟩
    intro field member
    have present : field ∈ recordMembers (entry.mergeContext context) includeLocation := by
      rw [recordMembers_eq, fixedMembers_mergeContext]
      exact List.mem_append_left _ member
    exact ⟨valueJson displayF64 field.value,
      lastMember_of_mem distinct (List.mem_map_of_mem present),
      reads_valueJson displayF64 field.value⟩

theorem nodup_merged_iff (stack : List Frame) (entry : LogEntry) (includeLocation : Bool) :
    ((recordMembers (entry.mergeContext (currentContext stack)) includeLocation).map
      Field.key).Nodup ↔ KeysApart stack entry includeLocation := by
  obtain ⟨appended, merged, precedence⟩ := Context.mergeContext_precedence stack entry
  have apart : (entry.fields.map Field.key).Disjoint (appended.map Field.key) := by
    intro key own taken
    exact ((precedence.occurring key).mp taken).2 own
  rw [recordMembers_eq, List.map_append, map_key_fixedMembers, merged]
  simp only [List.map_append, List.nodup_append', KeysApart, List.disjoint_append_right]
  constructor
  · rintro ⟨-, ⟨own, -, -⟩, fixedOwn, fixedTaken⟩
    refine ⟨own, ?_⟩
    intro name fixed
    refine ⟨fixedOwn fixed, ?_⟩
    intro inStack
    exact fixedTaken fixed ((precedence.occurring name).mpr ⟨inStack, fixedOwn fixed⟩)
  · rintro ⟨own, free⟩
    refine ⟨nodup_fixedNames includeLocation, ⟨own, precedence.once, apart⟩, ?_, ?_⟩
    · exact fun name fixed => (free name fixed).1
    · intro name fixed taken
      exact (free name fixed).2 ((precedence.occurring name).mp taken).1

/-- `write_record` writes a line that reads as the object of the merged members. -/
theorem writeRecord_reads {displayF64 : F64 → Text}
    (displayNumber : ∀ f : F64, f.isFinite = true → Rfc8259.isNumber (displayF64 f) = true)
    (entry : LogEntry) (includeLocation : Bool) :
    ∃ line, writeRecord displayF64 entry includeLocation [] = line ++ [10] ∧
      readLine line =
        some (.object ((recordMembers entry includeLocation).map (memberJson displayF64))) := by
  have newline : Text.utf8 ['\n'] = [10] := by decide
  refine ⟨Text.utf8 (recordText displayF64 entry includeLocation), ?_, ?_⟩
  · rw [writeRecord, recordLine_eq, Text.utf8_append, newline, List.nil_append]
  · rw [readLine_utf8]
    exact parse_recordText_eq displayNumber entry includeLocation

/-- The object written for a record in a context has distinct member names, and
a parser that keeps the last of duplicate members reads the record back, exactly
when the keys of users stay apart. -/
theorem unshadowed_iff_keysApart {displayF64 : F64 → Text}
    (displayNumber : ∀ f : F64, f.isFinite = true → Rfc8259.isNumber (displayF64 f) = true)
    (stack : List Frame) (entry : LogEntry) (includeLocation : Bool) :
    ∃ line members,
      writeRecord displayF64 (entry.mergeContext (currentContext stack)) includeLocation [] =
        line ++ [10] ∧
      readLine line = some (.object members) ∧
      (Unshadowed displayF64 entry includeLocation members ↔
        KeysApart stack entry includeLocation) := by
  obtain ⟨line, written, reads⟩ := writeRecord_reads displayNumber
    (entry.mergeContext (currentContext stack)) includeLocation
  refine ⟨line, _, written, reads, ?_⟩
  rw [unshadowed_iff_nodup]
  exact nodup_merged_iff stack entry includeLocation

theorem unshadowed_iff_keysApart_sample :
    ∃ line members,
      writeRecord sampleDisplay
        (sampleEntry.mergeContext (currentContext [⟨1, [⟨"user".toList, .int 7⟩]⟩])) true [] =
        line ++ [10] ∧
      readLine line = some (.object members) ∧
      (Unshadowed sampleDisplay sampleEntry true members ↔
        KeysApart [⟨1, [⟨"user".toList, .int 7⟩]⟩] sampleEntry true) :=
  unshadowed_iff_keysApart isNumber_sampleDisplay _ _ _

/-- A context that gives every record of its scope a `level`. -/
def levelScope : List Frame :=
  [⟨1, [⟨"level".toList, .str "OFF".toList⟩]⟩]

/-- The sample record is a warning, but its last `level` member is the one of the
context. -/
theorem level_shadowed :
    ∃ line members,
      writeRecord sampleDisplay (sampleEntry.mergeContext (currentContext levelScope)) true [] =
        line ++ [10] ∧
      readLine line = some (.object members) ∧
      lastMember members "level".toList = some (.string "OFF".toList) ∧
      ¬ Unshadowed sampleDisplay sampleEntry true members := by
  obtain ⟨line, written, reads⟩ := writeRecord_reads isNumber_sampleDisplay
    (sampleEntry.mergeContext (currentContext levelScope)) true
  refine ⟨line, _, written, reads, by rfl, ?_⟩
  rw [unshadowed_iff_nodup, nodup_merged_iff]
  decide

end XosLog.Json
