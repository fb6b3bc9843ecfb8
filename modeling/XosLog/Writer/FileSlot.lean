import XosLog.Rotation.Separation
import XosLog.Writer.Device

/-!
# A file sink in a slot

A file sink in the writer's hands is a device whose state is a world, and whose calls
meet one environment after another.  The disk is not its own: between its calls the
other sinks and other processes use it as well.  While no filesystem call fails and the
others leave its files alone, it does not fail either, and its files keep the end of what
it has been called with.
-/

namespace XosLog.Writer

open FileSystem.Disk Rotation

/-- What a call of the writer does to a file sink.  A record is handed over to
`write_bytes` as it was formatted. -/
def callFile (env : WriteEnv) (call : SinkCall) (world : World) : World × Outcome :=
  match call with
  | .writeEntry _ formatted =>
      match writeBytes env formatted world with
      | (world, .ok ()) => (world, .ok)
      | (world, .error _) => (world, .err)
  | .flush => (world, if env.verdicts.flush then .ok else .err)

/-- The world after others have used the disk. -/
def amid (others : Volume → Volume) (world : World) : World :=
  { world with disk := others world.disk }

/-- File sinks that meet the environments of their calls one after another, each after
what others have done to the disk since the call before. -/
def fileDevice (envs : Nat → WriteEnv) (others : Nat → Volume → Volume) : Device World where
  call k call world := callFile (envs k) call (amid (others k) world)

/-- A file sink as a boxed sink. -/
def fileSink (envs : Nat → WriteEnv) (others : Nat → Volume → Volume) (world : World) : Sink :=
  (fileDevice envs others).boxed world

/-- The world after all the calls of a sink, and after what others have done since. -/
def replay (envs : Nat → WriteEnv) (others : Nat → Volume → Volume) (world : World)
    (calls : List SinkCall) : World :=
  amid (others calls.length) ((fileDevice envs others).replay world calls)

/-- Whatever others do to the disk, they leave the files of a path alone. -/
def LeavesAlone (others : Nat → Volume → Volume) (path : Text) (maxBackups : Nat) : Prop :=
  ∀ k disk, Untouched (family path maxBackups) disk (others k disk)

/-- A call on a record writes it and ends as the write does. -/
theorem callFile_writeEntry (env : WriteEnv) (entry : LogEntry) (formatted : Bytes)
    (world : World) :
    (callFile env (.writeEntry entry formatted) world).1 = (writeBytes env formatted world).1 ∧
      ((callFile env (.writeEntry entry formatted) world).2 = .ok ↔
        (writeBytes env formatted world).2 = .ok ()) := by
  rw [callFile]
  generalize writeBytes env formatted world = written
  obtain ⟨after, result⟩ := written
  cases result <;> simp

end XosLog.Writer
