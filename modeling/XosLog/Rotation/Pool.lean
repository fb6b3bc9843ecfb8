import XosLog.Rotation.Preservation

/-!
# Several sinks on one disk

A process that logs to a file has its own sink, with its own open file and its own
count of the bytes; the disk is that of all of them.  No lock is held from the check
that a rotation is due to the write after it, so that the calls of different processes
come one after another is an assumption.
-/

namespace XosLog.Rotation

open FileSystem Transition

universe u

/-- Sinks on one disk. -/
structure Pool (ι : Type u) where
  sinks : ι → FileSink
  disk : Volume

namespace Pool

variable {ι : Type u} [DecidableEq ι]

/-- The disk as one of the sinks sees it. -/
def world (pool : Pool ι) (i : ι) : World :=
  ⟨pool.sinks i, pool.disk⟩

/-- The pool after a call of one of the sinks. -/
def put (pool : Pool ι) (i : ι) (world : World) : Pool ι :=
  ⟨Function.update pool.sinks i world.sink, world.disk⟩

/-- One event of one of the sinks, which no other one interrupts. -/
def step (pool : Pool ι) (turn : ι × Event) : Option (Pool ι) :=
  (Rotation.step (pool.world turn.1) turn.2).map (pool.put turn.1)

variable (pool : Pool ι) (i j : ι) (world : World)

omit [DecidableEq ι] in
@[simp]
theorem world_sink : (pool.world i).sink = pool.sinks i :=
  rfl

omit [DecidableEq ι] in
@[simp]
theorem world_disk : (pool.world i).disk = pool.disk :=
  rfl

@[simp]
theorem put_disk : (pool.put i world).disk = world.disk :=
  rfl

@[simp]
theorem put_sinks_self : (pool.put i world).sinks i = world.sink :=
  Function.update_self _ _ _

theorem put_sinks_of_ne {i j : ι} (distinct : j ≠ i) : (pool.put i world).sinks j = pool.sinks j :=
  Function.update_of_ne distinct _ _

/-- What holds of the sink of a call and of every other sink holds of all. -/
theorem forall_put (holds : ι → FileSink → Prop) {pool : Pool ι} {i : ι} {world : World}
    (own : holds i world.sink) (others : ∀ j, j ≠ i → holds j (pool.sinks j)) (j : ι) :
    holds j ((pool.put i world).sinks j) :=
  (Function.forall_update_iff pool.sinks holds).mpr ⟨own, others⟩ j

/-- A part of its state that a call leaves alone is that of before in every sink. -/
theorem put_keeps {γ : Type*} (part : FileSink → γ) {pool : Pool ι} {i : ι} {world : World}
    (kept : part world.sink = part (pool.sinks i)) (j : ι) :
    part ((pool.put i world).sinks j) = part (pool.sinks j) := by
  by_cases own : j = i
  · rw [own, put_sinks_self, kept]
  · rw [put_sinks_of_ne pool world own]

@[simp]
theorem world_put_self : (pool.put i world).world i = world := by
  rw [Pool.world, put_sinks_self, put_disk]

theorem world_put_of_ne {i j : ι} (distinct : j ≠ i) :
    (pool.put i world).world j = ⟨pool.sinks j, world.disk⟩ := by
  rw [Pool.world, put_sinks_of_ne pool world distinct, put_disk]

theorem step_eq_some {pool next : Pool ι} {turn : ι × Event} :
    pool.step turn = some next ↔
      ∃ world, Rotation.step (pool.world turn.1) turn.2 = some world ∧
        pool.put turn.1 world = next :=
  Option.map_eq_some_iff

end Pool

end XosLog.Rotation
