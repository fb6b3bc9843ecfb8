import XosLog.Rotation.FileSink

/-!
# Where custom intervals end

The documentation aligns a custom duration to its multiples since the epoch.
The sink reduces the duration and the clock to whole seconds first, so its slots
end at the multiples of the whole seconds of the duration, which are those of
the duration itself only when it has no fraction.
-/

namespace XosLog.Rotation

/-- A multiple of a period after one instant and not after another. -/
def Crosses (period start stop : Int) : Prop :=
  ∃ m : Int, start < m * period ∧ m * period ≤ stop

theorem crosses_iff {period start stop : Int} (positive : 0 < period) :
    Crosses period start stop ↔ start / period < stop / period := by
  constructor
  · rintro ⟨m, after, upTo⟩
    have early : start / period < m := Int.ediv_lt_of_lt_mul positive after
    have late : m ≤ stop / period := (Int.le_ediv_iff_mul_le positive).mpr upTo
    exact Int.lt_of_lt_of_le early late
  · intro before
    refine ⟨stop / period, ?_, Int.ediv_mul_le stop (Int.ne_of_gt positive)⟩
    exact (Int.ediv_lt_iff_lt_mul positive).mp before

theorem not_crosses_zero {start stop : Int} (start_nonneg : 0 ≤ start) :
    ¬ Crosses 0 start stop := by
  rintro ⟨m, after, -⟩
  rw [Int.mul_zero] at after
  exact Int.not_lt.mpr start_nonneg after

theorem crosses_self {period : Int} (positive : 0 < period) : Crosses period 0 period := by
  refine ⟨1, ?_, ?_⟩
  · rwa [Int.one_mul]
  · rw [Int.one_mul]

/-- Nothing shorter than a period holds one of its multiples from the epoch on. -/
theorem not_crosses_of_lt {period stop : Int} (nonneg : 0 ≤ stop) (shorter : stop < period) :
    ¬ Crosses period 0 stop := by
  rw [crosses_iff (Int.lt_of_le_of_lt nonneg shorter), Int.zero_ediv,
    Int.ediv_eq_zero_of_lt nonneg shorter]
  exact Int.lt_irrefl 0

namespace Duration

/-- The whole seconds of a duration, in nanoseconds. -/
def wholeNanos (duration : Duration) : Int :=
  duration.secs * 1000000000

/-- A duration in nanoseconds. -/
def asNanos (duration : Duration) : Int :=
  duration.wholeNanos + duration.nanos.val

theorem wholeNanos_pos {duration : Duration} (enabled : duration.secs ≠ 0) :
    0 < duration.wholeNanos :=
  Int.mul_pos (Int.ofNat_lt.mpr (Nat.pos_of_ne_zero enabled)) (by decide)

theorem wholeNanos_nonneg (duration : Duration) : 0 ≤ duration.wholeNanos :=
  Int.mul_nonneg (Int.natCast_nonneg duration.secs) (by decide)

theorem wholeNanos_lt_asNanos {duration : Duration} (fractional : duration.nanos ≠ 0) :
    duration.wholeNanos < duration.asNanos := by
  have positive : 0 < duration.nanos.val := Nat.pos_of_ne_zero fun zero =>
    fractional (Fin.ext zero)
  exact Int.lt_add_of_pos_right _ (Int.ofNat_lt.mpr positive)

theorem asNanos_of_whole {duration : Duration} (whole : duration.nanos = 0) :
    duration.asNanos = duration.wholeNanos := by
  rw [asNanos, whole]
  exact Int.add_zero _

end Duration

theorem unixSecs_of_nonneg {now : Instant} (after : 0 ≤ now) :
    (unixSecs now : Int) = now / 1000000000 := by
  rw [unixSecs, if_neg (Int.not_lt.mpr after)]
  exact Int.toNat_of_nonneg (Int.ediv_nonneg after (by decide))

/-- Counting whole seconds by a period is counting nanoseconds by it. -/
theorem unixSecs_div {now : Instant} (after : 0 ≤ now) (period : Nat) :
    ((unixSecs now / period : Nat) : Int) = now / (period * 1000000000) := by
  rw [Int.natCast_ediv, unixSecs_of_nonneg after, Int.mul_comm, Int.ediv_ediv_of_nonneg (by decide)]

/-! ## The slots of a custom interval -/

theorem slotStart_every {duration : Duration} (enabled : duration.secs ≠ 0) (now : Instant) :
    (RotationInterval.every duration).slotStart now =
      some (unixSecs now / duration.secs * duration.secs) := by
  simp [RotationInterval.slotStart, RotationInterval.periodSecs, enabled]

theorem slotStart_every_zero {duration : Duration} (disabled : duration.secs = 0)
    (now : Instant) : (RotationInterval.every duration).slotStart now = none := by
  simp [RotationInterval.slotStart, RotationInterval.periodSecs, disabled]

/-- A slot of whole seconds ends where a multiple of them lies. -/
theorem slot_lt_slot_iff {duration : Duration} (enabled : duration.secs ≠ 0)
    {start stop : Instant} (first : 0 ≤ start) (second : 0 ≤ stop) :
    unixSecs start / duration.secs * duration.secs <
        unixSecs stop / duration.secs * duration.secs ↔
      Crosses duration.wholeNanos start stop := by
  have whole := Duration.wholeNanos_pos enabled
  rw [crosses_iff whole, Duration.wholeNanos, ← unixSecs_div first, ← unixSecs_div second,
    Int.ofNat_lt]
  exact Nat.mul_lt_mul_right (Nat.pos_of_ne_zero enabled)

/-- A custom interval ends at the multiples of its whole seconds, and never when
it has none. -/
theorem intervalElapsed_every {duration : Duration} {sink : FileSink} {start stop : Instant}
    (custom : sink.interval = .every duration) (first : 0 ≤ start) (le : start ≤ stop)
    (captured : sink.intervalStart = sink.interval.slotStart start) :
    sink.intervalElapsed stop = true ↔
      duration.secs ≠ 0 ∧ Crosses duration.wholeNanos start stop := by
  rw [FileSink.intervalElapsed, captured, custom]
  by_cases enabled : duration.secs = 0
  · simp [slotStart_every_zero enabled, enabled]
  · rw [slotStart_every enabled, slotStart_every enabled]
    simp only [decide_eq_true_eq, ne_eq, enabled, not_false_eq_true, true_and]
    exact slot_lt_slot_iff enabled first (Int.le_trans first le)

/-! ## The documented law -/

/-- The interval of a sink is found elapsed exactly when a multiple of the
duration was passed since the slot was captured. -/
def EndsAtMultiples (duration : Duration) : Prop :=
  ∀ (sink : FileSink) (start stop : Instant),
    sink.interval = .every duration → 0 ≤ start → start ≤ stop →
    sink.intervalStart = sink.interval.slotStart start →
    (sink.intervalElapsed stop = true ↔ Crosses duration.asNanos start stop)

/-- The interval of no sink is ever found elapsed. -/
def NeverEnds (duration : Duration) : Prop :=
  ∀ (sink : FileSink) (start stop : Instant),
    sink.interval = .every duration → 0 ≤ start → start ≤ stop →
    sink.intervalStart = sink.interval.slotStart start →
    sink.intervalElapsed stop = false

/-- A sink with a custom interval whose slot was captured at an instant. -/
def sinkEvery (duration : Duration) (start : Instant) : FileSink where
  path := "app.log".toList
  file := 0
  maxSize := 0
  maxBackups := 1
  size := 0
  interval := .every duration
  intervalStart := (RotationInterval.every duration).slotStart start

theorem sinkEvery_elapsed {duration : Duration} {start stop : Instant} (first : 0 ≤ start)
    (le : start ≤ stop) :
    (sinkEvery duration start).intervalElapsed stop = true ↔
      duration.secs ≠ 0 ∧ Crosses duration.wholeNanos start stop :=
  intervalElapsed_every rfl first le rfl

theorem endsAtMultiples_of_whole {duration : Duration} (whole : duration.nanos = 0) :
    EndsAtMultiples duration := by
  intro sink start stop custom first le captured
  rw [intervalElapsed_every custom first le captured, Duration.asNanos_of_whole whole]
  by_cases enabled : duration.secs = 0
  · have zero : duration.wholeNanos = 0 := by
      rw [Duration.wholeNanos, enabled]
      rfl
    simp [enabled, zero, not_crosses_zero first]
  · simp [enabled]

/-- A fraction makes the first slot end too early, or not at all. -/
theorem whole_of_endsAtMultiples {duration : Duration} (exact : EndsAtMultiples duration) :
    duration.nanos = 0 := by
  by_contra fractional
  have wholeNonneg := duration.wholeNanos_nonneg
  have longer := Duration.wholeNanos_lt_asNanos fractional
  have nonneg := Int.le_trans wholeNonneg (Int.le_of_lt longer)
  by_cases enabled : duration.secs = 0
  · have ended := (exact (sinkEvery duration 0) 0 duration.asNanos rfl (Int.le_refl 0) nonneg
      rfl).mpr (crosses_self (Int.lt_of_le_of_lt wholeNonneg longer))
    exact ((sinkEvery_elapsed (Int.le_refl 0) nonneg).mp ended).1 enabled
  · have ended := (sinkEvery_elapsed (Int.le_refl 0) wholeNonneg).mpr
      ⟨enabled, crosses_self (Duration.wholeNanos_pos enabled)⟩
    have crossed := (exact (sinkEvery duration 0) 0 duration.wholeNanos rfl (Int.le_refl 0)
      wholeNonneg rfl).mp ended
    exact not_crosses_of_lt wholeNonneg longer crossed

theorem zero_of_neverEnds {duration : Duration} (whole : duration.nanos = 0)
    (never : NeverEnds duration) : duration.asNanos = 0 := by
  rw [Duration.asNanos_of_whole whole]
  by_contra nonzero
  have enabled : duration.secs ≠ 0 := by
    intro zero
    apply nonzero
    rw [Duration.wholeNanos, zero]
    rfl
  have ended := (sinkEvery_elapsed (Int.le_refl 0) duration.wholeNanos_nonneg).mpr
    ⟨enabled, crosses_self (Duration.wholeNanos_pos enabled)⟩
  rw [never (sinkEvery duration 0) 0 duration.wholeNanos rfl (Int.le_refl 0)
    duration.wholeNanos_nonneg rfl] at ended
  contradiction

/-- A custom interval ends at exactly the multiples of its duration, and only the
zero duration never ends, exactly when the duration is a whole number of
seconds. -/
theorem endsAtMultiples_iff_whole (duration : Duration) :
    EndsAtMultiples duration ∧ (NeverEnds duration → duration.asNanos = 0) ↔
      duration.nanos = 0 := by
  constructor
  · rintro ⟨exact, -⟩
    exact whole_of_endsAtMultiples exact
  · intro whole
    exact ⟨endsAtMultiples_of_whole whole, zero_of_neverEnds whole⟩

/-- One and a half seconds. -/
def threeHalves : Duration :=
  ⟨1, 500000000⟩

/-- A slot of one and a half seconds is over after one second. -/
theorem threeHalves_ends_early :
    (sinkEvery threeHalves 0).intervalElapsed 1000000000 = true ∧
      ¬ Crosses threeHalves.asNanos 0 1000000000 :=
  ⟨by decide, not_crosses_of_lt (by decide) (by decide)⟩

end XosLog.Rotation
