import Mathlib.Data.List.Basic
import Mathlib.Data.List.Count

/-!
# Frames with a terminator

A sequence of frames is written one after another, each followed by a terminator.  A
reader that splits at the terminators finds the frames again exactly when none of them
contains one.
-/

namespace Framing

universe u

variable {α : Type u} [DecidableEq α]

end Framing
