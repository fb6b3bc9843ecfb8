import XosLog.Writer.FileSlot

/-!
# The disk that a slot shares

A file sink in a slot knows of the other sinks only what they do to the disk between its
calls.  Where their paths are apart from its own, they leave its files alone.  So what
the results on a slot assume of the others is met on a disk of such sinks: the world of
each one is the world that its own calls replay.
-/

namespace XosLog.Writer

open FileSystem.Disk Rotation Transition

universe u

section

variable {envs : Nat → WriteEnv} {others : Nat → Volume → Volume} {path : Text}
  {maxBackups : Nat} {first : World} {calls : List SinkCall}

/-- Right after a further call the others have not done anything yet. -/
theorem LeavesAlone.exists_call (alone : LeavesAlone others path maxBackups) (call : SinkCall) :
    ∃ later, LeavesAlone later path maxBackups ∧
      replay envs later first (calls ++ [call]) =
        (callFile (envs calls.length) call (replay envs others first calls)).1 := by
  refine ⟨Function.update others (calls.length + 1) id, ?_, ?_⟩
  · intro k disk
    by_cases last : k = calls.length + 1
    · rw [last, Function.update_self]
      exact Untouched.refl _ disk
    · rw [Function.update_of_ne last]
      exact alone k disk
  · have before : ∀ k < calls.length + 1,
        Function.update others (calls.length + 1) id k = others k :=
      fun k inside => Function.update_of_ne (Nat.ne_of_lt inside) _ _
    have same : (fileDevice envs (Function.update others (calls.length + 1) id)).replay first
        calls = (fileDevice envs others).replay first calls := by
      apply Device.replay_congr
      intro k inside
      simp only [fileDevice, before k (Nat.lt_succ_of_lt inside)]
    rw [replay, List.length_append, List.length_singleton, Function.update_self,
      Device.replay_concat, same]
    simp only [fileDevice, before _ (Nat.lt_succ_self _)]
    rfl

/-- The others may do something more before the next call. -/
theorem LeavesAlone.exists_others (alone : LeavesAlone others path maxBackups) {world : World}
    (replayed : replay envs others first calls = world) {after : Volume}
    (untouched : Untouched (family path maxBackups) world.disk after) :
    ∃ later, LeavesAlone later path maxBackups ∧
      replay envs later first calls = ⟨world.sink, after⟩ := by
  classical
  subst replayed
  let last := (fileDevice envs others).replay first calls
  let later := Function.update others calls.length fun disk =>
    if disk = last.disk then after else others calls.length disk
  refine ⟨later, ?_, ?_⟩
  · intro k disk
    by_cases present : k = calls.length
    · simp only [later, present, Function.update_self]
      split
      · rename_i same
        rw [same]
        exact (alone calls.length last.disk).trans untouched
      · exact alone calls.length disk
    · simp only [later, Function.update_of_ne present]
      exact alone k disk
  · have same : (fileDevice envs later).replay first calls = last := by
      apply Device.replay_congr
      intro k inside
      simp only [fileDevice, later, Function.update_of_ne (Nat.ne_of_lt inside)]
    rw [replay, same]
    simp only [amid, later, Function.update_self, if_pos]
    rfl

end

/-! ## Sinks apart -/

section

variable {ι : Type u} [DecidableEq ι] {paths : ι → Text} {limits : ι → Nat} {i : ι}
  {envs : Nat → WriteEnv}

/-- The turns of sinks on one disk, one of which is called by the writer: it writes what
it is called with, and does nothing to the disk when it is flushed. -/
inductive Called (i : ι) (envs : Nat → WriteEnv) : List (ι × Event) → List SinkCall → Prop
  | start : Called i envs [] []
  | others {turns calls turn} : Called i envs turns calls → turn.1 ≠ i →
      Called i envs (turns ++ [turn]) calls
  | record {turns calls} (entry : LogEntry) (formatted : Bytes) : Called i envs turns calls →
      Called i envs (turns ++ [(i, .write (envs calls.length) formatted)])
        (calls ++ [.writeEntry entry formatted])
  | flush {turns calls} : Called i envs turns calls → Called i envs turns (calls ++ [.flush])

/-- A sink whose path is apart from those of the other sinks on the disk is at every
moment in the world that its own calls replay, while others leave its files alone. -/
theorem exists_leavesAlone {turns : List (ι × Event)} {calls : List SinkCall}
    (called : Called i envs turns calls)
    (apart : ∀ i j, i ≠ j → PathsApart (paths i) (limits i) (paths j) (limits j))
    {pool target : Pool ι} (attached : ∀ i, (pool.world i).Attached)
    (path_eq : ∀ i, (pool.sinks i).path = paths i)
    (keeps : ∀ i, (pool.sinks i).maxBackups ≤ limits i)
    (fits : ∀ turn ∈ turns, turn.2.Fits (limits turn.1))
    (ran : run Pool.step pool turns = some target) :
    ∃ others, LeavesAlone others (paths i) (limits i) ∧
      replay envs others (pool.world i) calls = target.world i := by
  induction called generalizing target with
  | start =>
      cases ran
      exact ⟨fun _ => id, fun _ => Untouched.refl _, rfl⟩
  | @others turns calls turn _ other inductionHypothesis =>
      rw [List.forall_mem_append] at fits
      obtain ⟨middle, ranBefore, stepped⟩ := (run_concat_eq_some Pool.step).mp ran
      obtain ⟨others, alone, replayed⟩ := inductionHypothesis fits.1 ranBefore
      obtain ⟨_, separated, _⟩ :=
        (separated_of_attached apart attached path_eq keeps).run apart fits.1 ranBefore
      have untouched := separated.untouched apart (Ne.symm other)
        (fits.2 turn List.mem_cons_self) stepped
      obtain ⟨later, stillAlone, same⟩ := alone.exists_others replayed untouched
      obtain ⟨world, _, rfl⟩ := Pool.step_eq_some.mp stepped
      exact ⟨later, stillAlone, same.trans (middle.world_put_of_ne world (Ne.symm other)).symm⟩
  | @record turns calls entry formatted _ inductionHypothesis =>
      rw [List.forall_mem_append] at fits
      obtain ⟨middle, ranBefore, stepped⟩ := (run_concat_eq_some Pool.step).mp ran
      obtain ⟨others, alone, replayed⟩ := inductionHypothesis fits.1 ranBefore
      obtain ⟨later, stillAlone, same⟩ := @LeavesAlone.exists_call envs others _ _
        (pool.world i) calls alone (.writeEntry entry formatted)
      obtain ⟨world, written, rfl⟩ := Pool.step_eq_some.mp stepped
      obtain rfl := Option.some.inj written
      refine ⟨later, stillAlone, ?_⟩
      rw [same, replayed, (callFile_writeEntry _ entry formatted _).1, Pool.world_put_self]
  | @flush turns calls _ inductionHypothesis =>
      obtain ⟨others, alone, replayed⟩ := inductionHypothesis fits ran
      obtain ⟨later, stillAlone, same⟩ := @LeavesAlone.exists_call envs others _ _
        (pool.world i) calls alone .flush
      exact ⟨later, stillAlone, same.trans replayed⟩

end

end XosLog.Writer
