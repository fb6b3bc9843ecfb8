import XosLog.Archive
import XosLog.Format
import XosLog.Json.Stream

/-!
# Files of JSON lines

A file that holds whole records decodes to them line by line, whichever records of
the log these are.
-/

namespace XosLog.Json

variable {displayF64 : F64 → Text} {includeLocation : Bool}

end XosLog.Json
