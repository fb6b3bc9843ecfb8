import XosLog.Format
import XosLog.Framing
import XosLog.Json.Stream
import XosLog.Rfc3164.Reader
import XosLog.Time.Rendering

/-!
# Files of plain lines

The plain format ends a record with a newline and escapes nothing.  A reader that splits
a file at the newlines and each line at the delimiters of the format finds the records
again exactly when none of them brings a newline of its own.
-/

namespace XosLog.Format

open Rfc3164 (upTo upTo_append isDigit_of_mem_toDigits)
open Rfc3339 (expect)

/-- What a line of the plain format says. -/
structure Line where
  time : Text
  level : Level
  text : Text
  deriving DecidableEq, Repr

/-- The time up to a space, the level in square brackets, and the text after a space. -/
def readLine (line : Bytes) : Option Line := do
  let text ← line.toByteArray.utf8Decode?
  let (time, text) ← upTo ' ' text.toList
  let text ← expect ['['] text
  let (name, text) ← upTo ']' text
  let level ← Level.parse name
  let text ← expect [' '] text
  return ⟨time, level, text⟩

/-- What `format_record` puts after the level. -/
def recordText (includeLocation : Bool) (entry : LogEntry) : Text :=
  if includeLocation ∧ ¬ entry.location.isEmpty then
    entry.message ++ " (".toList ++ entry.location ++ ")".toList
  else entry.message

/-- What a reader should find for a record. -/
def lineOf (includeLocation : Bool) (entry : LogEntry) : Line where
  time := entry.timestamp.display
  level := entry.level
  text := recordText includeLocation entry

/-- A file splits at the newlines into one line for each record, which says what the
record says, and nothing after the last newline. -/
def Reads (includeLocation : Bool) (content : Bytes) (entries : List LogEntry) : Prop :=
  ∃ lines : List Bytes, content.splitOn 10 = lines ++ [[]] ∧
    lines.map readLine = entries.map fun entry => some (lineOf includeLocation entry)

end XosLog.Format
