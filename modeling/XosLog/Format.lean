import XosLog.Json.Record

/-!
# Formatting a record

The writer thread formats every record once, as plain text or as JSON, and
hands the same bytes to every sink.
-/

namespace XosLog

/-- The formatting options of a logger. -/
structure Format where
  json : Bool
  includeLocation : Bool
  /-- The `Display` rendering of a finite float. -/
  displayF64 : F64 → Text

namespace Format

/-- Format a record as plain text, with a trailing newline. -/
def formatRecord (entry : LogEntry) (includeLocation : Bool) (out : Bytes) : Bytes :=
  let line := entry.timestamp.display ++ " [".toList ++ entry.level.asStr ++ "] ".toList ++
    entry.message
  let line :=
    if includeLocation ∧ ¬ entry.location.isEmpty then
      line ++ " (".toList ++ entry.location ++ ")".toList
    else line
  out ++ Text.utf8 line ++ Text.utf8 ['\n']

/-- The bytes `handle_message` hands to the sinks for a record. -/
def record (format : Format) (entry : LogEntry) : Bytes :=
  if format.json then Json.writeRecord format.displayF64 entry format.includeLocation []
  else formatRecord entry format.includeLocation []

end Format

end XosLog
