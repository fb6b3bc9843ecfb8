import Mathlib.Data.List.Forall2
import XosLog.Rotation.Preservation

/-!
# Crashes

A process can be killed inside a write, between any two of its filesystem calls or while
it appends, and the next process opens the path again.  Whatever number of times that
happens, the files keep the end of the log: every record that was written is whole in one
of the files or has been rotated out, and each crash leaves at most a part of the record
it came in the way of.
-/

namespace XosLog.Rotation

open FileSystem Transition

/-! ## Interrupted writes -/

theorem Retains.rotateFrom {slots past : List Bytes} {cut : Nat} (inside : cut < slots.length)
    (retains : Retains slots past) : Retains (Archive.rotateFrom cut slots) past := by
  obtain ⟨bins, rfl, suffix⟩ := retains
  rw [List.length_map] at inside
  refine ⟨Archive.rotateFrom cut bins, ?_, (Archive.history_rotateFrom inside).trans suffix⟩
  rw [Archive.rotateFrom, Archive.rotateFrom, List.map_append, Archive.map_flatten_rotate,
    List.map_take, List.map_drop]

section

variable (env : WriteEnv) (bytes : Bytes) {past : List Bytes} {world : World}
  {count written : Nat} (stopped : env.verdicts = .stopped world.sink.maxBackups count written)
  (retains : Retains world.slots past)

include stopped retains

end

/-! ## Processes that come and go -/

/-- What can happen to a log over the lives of several processes. -/
inductive Life
  | goesOn (event : Event)
  /-- The process is killed inside a write, and the next one opens the path. -/
  | killed (env : WriteEnv) (bytes : Bytes) (maxSize : Nat) (interval : RotationInterval)
      (opening : OpenEnv)

/-- The events of one part of a log's lives. -/
def Life.events (maxBackups : Nat) : Life → List Event
  | .goesOn event => [event]
  | .killed env bytes maxSize interval opening =>
      [.write env bytes, .reopen maxSize maxBackups interval opening]

/-- Nothing fails but for the crash. -/
def Life.Faultless (maxBackups : Nat) : Life → Prop
  | .goesOn event => event.Faultless maxBackups
  | .killed env _ _ _ opening =>
      (∃ count written, env.verdicts = .stopped maxBackups count written) ∧ opening.Faultless

/-- The records, with whether the process was killed over them. -/
def Life.records : Life → List (Bytes × Bool)
  | .goesOn event => (Rotation.records [event]).map fun bytes => (bytes, false)
  | .killed _ bytes _ _ _ => [(bytes, true)]

section

variable {path : Text} {maxBackups : Nat} {past : List Bytes} {world : World}

end

end XosLog.Rotation
