import XosLog.Entry

/-!
# Flat JSON formatting of log records

Each record is written as a single flat JSON object followed by a newline.  The
`Display` rendering of a finite float is a parameter, `displayF64`.
-/

namespace XosLog.Json

/-- What `push_string` appends for one character. -/
def escapeChar (ch : Char) : Text :=
  if ch = '"' then "\\\"".toList
  else if ch = '\\' then "\\\\".toList
  else if ch = '\n' then "\\n".toList
  else if ch = '\r' then "\\r".toList
  else if ch = '\t' then "\\t".toList
  else if ch = '\x08' then "\\b".toList
  else if ch = '\x0c' then "\\f".toList
  else if Text.isControl ch then "\\u".toList ++ Text.zeroPaddedHex 4 ch.toNat
  else [ch]

/-- Append `value` as a JSON string literal, escaping as needed. -/
def pushString (out value : Text) : Text :=
  out ++ '"' :: value.flatMap escapeChar ++ ['"']

/-- Append `value` serialized as a JSON value. -/
def pushValue (displayF64 : F64 → Text) (out : Text) : FieldValue → Text
  | .str s => pushString out s
  | .int i => out ++ Text.signedDecimal i
  | .float f => if f.isFinite then out ++ displayF64 f else out ++ "null".toList
  | .bool b => out ++ (if b then "true".toList else "false".toList)
  | .null => out ++ "null".toList

/-- Append one field as a further member of the object. -/
def pushField (displayF64 : F64 → Text) (line : Text) (field : Field) : Text :=
  pushValue displayF64 (pushString (line ++ [',']) field.key ++ [':']) field.value

/-- The line `write_record` builds, newline included. -/
def recordLine (displayF64 : F64 → Text) (entry : LogEntry) (includeLocation : Bool) : Text :=
  let line := "\x7b\"ts\":\"".toList ++ entry.timestamp.display ++
    "\",\"level\":\"".toList ++ entry.level.asStr ++ "\",\"msg\":".toList
  let line := pushString line entry.message
  let line :=
    if includeLocation then
      let line := pushString (line ++ ",\"file\":".toList) entry.file
      let line := line ++ ",\"line\":".toList ++ Text.decimal entry.line ++
        ",\"target\":".toList
      pushString line entry.target
    else line
  let line := entry.fields.foldl (pushField displayF64) line
  line ++ "\x7d\n".toList

/-- Append `entry` as a single flat JSON object followed by a newline. -/
def writeRecord (displayF64 : F64 → Text) (entry : LogEntry) (includeLocation : Bool)
    (out : Bytes) : Bytes :=
  out ++ Text.utf8 (recordLine displayF64 entry includeLocation)

end XosLog.Json
