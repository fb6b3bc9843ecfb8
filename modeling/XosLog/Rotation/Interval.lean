import Mathlib.Data.Int.DivMod
import XosLog.Text

/-!
# Rotation intervals

Instants are counted in nanoseconds from the Unix epoch.  A slot of an interval
is named by the second at which it begins.
-/

namespace XosLog.Rotation

/-- A `SystemTime`, in nanoseconds since the Unix epoch. -/
abbrev Instant :=
  Int

/-- A `Duration`. -/
structure Duration where
  secs : Nat
  nanos : Fin 1000000000
  deriving DecidableEq, Repr

/-- How often a file sink rotates on the wall clock. -/
inductive RotationInterval
  | never
  | hourly
  | daily
  | weekly
  | every (duration : Duration)
  deriving DecidableEq, Repr

/-- Seconds since the Unix epoch.  Times before the epoch clamp to zero. -/
def unixSecs (now : Instant) : Nat :=
  if now < 0 then 0 else (now / 1000000000).toNat

/-- Second of the ISO-week Monday 00:00 UTC that contains a second. -/
def isoWeekStartSecs (secs : Nat) : Nat :=
  let epochMondayOffset : Int := 3 * 86400
  let week : Int := 604800
  let shifted := (secs : Int) + epochMondayOffset
  let start := shifted / week * week - epochMondayOffset
  if start < 0 then 0 else start.toNat

namespace RotationInterval

def hourSecs : Nat := 3600
def daySecs : Nat := 86400
def weekSecs : Nat := 604800

/-- Length of the fixed interval in whole seconds, if it is enabled. -/
def periodSecs : RotationInterval → Option Nat
  | never => none
  | hourly => some hourSecs
  | daily => some daySecs
  | weekly => some weekSecs
  | every duration => if duration.secs = 0 then none else some duration.secs

/-- Second at which the interval containing an instant began. -/
def slotStart (interval : RotationInterval) (now : Instant) : Option Nat :=
  let secs := unixSecs now
  match interval with
  | never => none
  | weekly => some (isoWeekStartSecs secs)
  | _ => interval.periodSecs.map fun period => secs / period * period

end RotationInterval

/-! ## Slots follow the clock -/

theorem unixSecs_mono {earlier later : Instant} (le : earlier ≤ later) :
    unixSecs earlier ≤ unixSecs later := by
  unfold unixSecs
  by_cases before : earlier < 0
  · rw [if_pos before]
    exact Nat.zero_le _
  · have after : ¬later < 0 := fun negative => before (Int.lt_of_le_of_lt le negative)
    rw [if_neg before, if_neg after]
    exact Int.toNat_le_toNat (Int.ediv_le_ediv (by decide) le)

theorem isoWeekStartSecs_mono {earlier later : Nat} (le : earlier ≤ later) :
    isoWeekStartSecs earlier ≤ isoWeekStartSecs later := by
  unfold isoWeekStartSecs
  dsimp only
  split_ifs <;> omega

/-- Either an interval has slots at every instant, in order, or at none. -/
theorem RotationInterval.slotStart_mono (interval : RotationInterval) {earlier later : Instant}
    (le : earlier ≤ later) :
    (interval.slotStart earlier = none ∧ interval.slotStart later = none) ∨
      ∃ first last, interval.slotStart earlier = some first ∧
        interval.slotStart later = some last ∧ first ≤ last := by
  have periodic : ∀ {kind : RotationInterval},
      (kind.periodSecs.map fun period => unixSecs earlier / period * period) = none ∧
        (kind.periodSecs.map fun period => unixSecs later / period * period) = none ∨
      ∃ first last, (kind.periodSecs.map fun period => unixSecs earlier / period * period) =
          some first ∧
        (kind.periodSecs.map fun period => unixSecs later / period * period) = some last ∧
          first ≤ last := by
    intro kind
    cases kind.periodSecs with
    | none => exact Or.inl ⟨rfl, rfl⟩
    | some period =>
        refine Or.inr ⟨_, _, rfl, rfl, ?_⟩
        exact Nat.mul_le_mul_right period (Nat.div_le_div_right (unixSecs_mono le))
  cases interval with
  | never => exact Or.inl ⟨rfl, rfl⟩
  | weekly => exact Or.inr ⟨_, _, rfl, rfl, isoWeekStartSecs_mono (unixSecs_mono le)⟩
  | hourly => exact @periodic .hourly
  | daily => exact @periodic .daily
  | every duration => exact @periodic (.every duration)

/-- Whether an interval has slots does not depend on the instant. -/
theorem RotationInterval.slotStart_eq_none_iff (interval : RotationInterval)
    (first second : Instant) :
    interval.slotStart first = none ↔ interval.slotStart second = none := by
  have ordered : ∀ {earlier later : Instant}, earlier ≤ later →
      (interval.slotStart earlier = none ↔ interval.slotStart later = none) := by
    intro earlier later le
    rcases interval.slotStart_mono le with ⟨before, after⟩ | ⟨slot, later, before, after, _⟩
    · rw [before, after]
    · simp [before, after]
  rcases Int.le_total first second with le | le
  · exact ordered le
  · exact (ordered le).symm

end XosLog.Rotation
