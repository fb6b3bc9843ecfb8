import XosLog.Entry

/-!
# Thread-local context

A thread's context is a stack of frames, outermost first.  The merged context
keeps one field for each key: its position is that of the first occurrence,
its value that of the last.
-/

namespace XosLog.Context

/-- A single frame on a thread's context stack. -/
structure Frame where
  id : Nat
  fields : List Field
  deriving DecidableEq, Repr

/-- Replace the field with the same key, or append a new one. -/
def setField (merged : List Field) (field : Field) : List Field :=
  match merged with
  | [] => [field]
  | existing :: rest =>
      if existing.key = field.key then field :: rest
      else existing :: setField rest field

/-- The merged context of a stack as a deduplicated list of fields. -/
def currentContext (stack : List Frame) : List Field :=
  stack.foldl (fun merged frame => frame.fields.foldl setField merged) []

end XosLog.Context
