import XosLog.FileSystem.Cascade
import XosLog.Rotation.Interval

/-!
# The rotating file sink

The sink holds an open file, that is, an inode.  What the environment does
during a call is given beforehand: the instants its clock reads and the verdict
on each of the filesystem calls it makes.
-/

namespace XosLog.Rotation

/-- A disk with byte files under textual paths. -/
abbrev Volume :=
  FileSystem.Disk Text UInt8

/-- Which filesystem call an `io::Error` comes from. -/
inductive IoError
  | createDir
  | openFile
  | flush
  | rename
  | write
  deriving DecidableEq, Repr

/-- A file sink with size-based and optional time-based rotation. -/
structure FileSink where
  path : Text
  file : Nat
  maxSize : Nat
  maxBackups : Nat
  size : Nat
  interval : RotationInterval
  /-- Start of the slot that the active file belongs to. -/
  intervalStart : Option Nat
  deriving DecidableEq, Repr

/-- Whether the filesystem calls of one `write_bytes` succeed. -/
structure Verdicts where
  flush : Bool
  remove : Bool
  /-- By the slot that is renamed. -/
  rename : Nat → Bool
  reopen : Bool
  /-- `some count` when `write_all` fails after that many bytes. -/
  write : Option Nat

/-- The environment of one `write_bytes` call: the instants at which it checks
the interval, reopens the file, starts the new slot and writes. -/
structure WriteEnv where
  checked : Instant
  reopened : Instant
  rotated : Instant
  written : Instant
  verdicts : Verdicts

/-- The environment of opening a sink.  The two queries of the metadata are for
the size and for the time of the last modification. -/
structure OpenEnv where
  /-- `create_dir_all`, where it is called, succeeds. -/
  createDir : Bool
  openFile : Bool
  sized : Bool
  dated : Bool
  opened : Instant
  checked : Instant

/-- The largest `u64`. -/
def maxU64 : Nat := 2 ^ 64 - 1

/-- `u64::saturating_add`. -/
def saturatingAdd (first second : Nat) : Nat :=
  min (first + second) maxU64

/-- The path of the `n`-th rotated backup file. -/
def backupPath (path : Text) (n : Nat) : Text :=
  path ++ '.' :: Text.decimal n

/-- The slot of the interval that an opened file belongs to: that of its last
modification when it is known, otherwise that of the clock. -/
def intervalStartFor (modified : Option Instant) (interval : RotationInterval) (now : Instant) :
    Option Nat :=
  match interval.slotStart now with
  | none => none
  | some nowSlot => (modified.bind interval.slotStart).or (some nowSlot)

/-- A file whose modification time is known belongs to the slot of that time. -/
theorem intervalStartFor_some (modified : Instant) (interval : RotationInterval) (now : Instant) :
    intervalStartFor (some modified) interval now = interval.slotStart modified := by
  unfold intervalStartFor
  cases current : interval.slotStart now with
  | none => exact ((interval.slotStart_eq_none_iff modified now).mpr current).symm
  | some nowSlot =>
      cases known : interval.slotStart modified with
      | none =>
          rw [(interval.slotStart_eq_none_iff modified now).mp known] at current
          contradiction
      | some slot => simp [known]

/-- Open a log file.  The disk is the one after the call. -/
def openWith (path : Text) (maxSize maxBackups : Nat) (interval : RotationInterval)
    (env : OpenEnv) (disk : Volume) : Except IoError FileSink × Volume :=
  if env.createDir then
    match disk.openAppend env.openFile env.opened path with
    | none => (.error .openFile, disk)
    | some (file, disk) =>
        let size := if env.sized then (disk.inodes file).content.length else 0
        let modified := if env.dated then some (disk.inodes file).modified else none
        (.ok {
          path, file, maxSize, maxBackups, size, interval,
          intervalStart := intervalStartFor modified interval env.checked }, disk)
  else (.error .createDir, disk)

/-- A sink together with the disk it writes to. -/
structure World where
  sink : FileSink
  disk : Volume

namespace FileSink

/-- Whether a record would make the active file grow past the size limit. -/
def sizeHit (sink : FileSink) (bytes : Bytes) : Bool :=
  0 < sink.maxSize ∧ sink.maxSize < saturatingAdd sink.size bytes.length

/-- Whether the current slot has ended. -/
def intervalElapsed (sink : FileSink) (now : Instant) : Bool :=
  match sink.intervalStart, sink.interval.slotStart now with
  | some opened, some now => opened < now
  | _, _ => false

end FileSink

/-- Rename the backups from slot `slot` down to slot one up by one. -/
def shiftLoop (path : Text) (verdicts : Verdicts) : Nat → Volume → Volume
  | 0, disk => disk
  | slot + 1, disk =>
      shiftLoop path verdicts slot
        (disk.tryRename (verdicts.rename (slot + 1)) (backupPath path (slot + 1))
          (backupPath path (slot + 2)))

/-- Drop the oldest backup, shift the existing ones and rename the active file
to the first backup. -/
def shiftBackups (sink : FileSink) (verdicts : Verdicts) (disk : Volume) :
    Volume × Except IoError Unit :=
  let disk := disk.tryRemove verdicts.remove (backupPath sink.path sink.maxBackups)
  let disk := shiftLoop sink.path verdicts (sink.maxBackups - 1) disk
  match disk.rename (verdicts.rename 0) sink.path (backupPath sink.path 1) with
  | some disk => (disk, .ok ())
  | none => (disk, .error .rename)

/-- Point the sink at the reopened active file. -/
def restart (sink : FileSink) (env : WriteEnv) (file : Nat) : FileSink :=
  { sink with file, size := 0, intervalStart := sink.interval.slotStart env.rotated }

/-- Rotate the current log file. -/
def rotate (env : WriteEnv) (world : World) : World × Except IoError Unit :=
  let sink := world.sink
  if env.verdicts.flush then
    if 0 < sink.maxBackups then
      match shiftBackups sink env.verdicts world.disk with
      | (disk, .error error) => ({ world with disk }, .error error)
      | (disk, .ok ()) =>
          match disk.openAppend env.verdicts.reopen env.reopened sink.path with
          | none => ({ world with disk }, .error .openFile)
          | some (file, disk) => ({ sink := restart sink env file, disk }, .ok ())
    else
      -- not opened for appending: the handle is at the end of the file as long as no other
      -- one writes to it
      match world.disk.openTruncate env.verdicts.reopen env.reopened sink.path with
      | none => (world, .error .openFile)
      | some (file, disk) => ({ sink := restart sink env file, disk }, .ok ())
  else (world, .error .flush)

/-- `write_all` at the end of the active file, and the count of its bytes. -/
def appendBytes (env : WriteEnv) (bytes : Bytes) (world : World) : World × Except IoError Unit :=
  let sink := world.sink
  match env.verdicts.write with
  | none =>
      ({ sink := { sink with size := sink.size + bytes.length },
         disk := world.disk.append sink.file bytes env.written }, .ok ())
  | some count =>
      ({ world with disk := world.disk.append sink.file (bytes.take count) env.written },
        .error .write)

/-- Whether a write starts with a rotation. -/
def rotationDue (env : WriteEnv) (bytes : Bytes) (sink : FileSink) : Bool :=
  sink.sizeHit bytes || sink.intervalElapsed env.checked

/-- Write one record, rotating first when that is due. -/
def writeBytes (env : WriteEnv) (bytes : Bytes) (world : World) : World × Except IoError Unit :=
  if rotationDue env bytes world.sink then
    match rotate env world with
    | (world, .error error) => (world, .error error)
    | (world, .ok ()) => appendBytes env bytes world
  else appendBytes env bytes world

/-- What can happen to a sink. -/
inductive Event
  | write (env : WriteEnv) (bytes : Bytes)
  | reopen (maxSize maxBackups : Nat) (interval : RotationInterval) (env : OpenEnv)

/-- One event.  A sink that cannot be reopened is no longer there. -/
def step (world : World) : Event → Option World
  | .write env bytes => some (writeBytes env bytes world).1
  | .reopen maxSize maxBackups interval env =>
      match openWith world.sink.path maxSize maxBackups interval env world.disk with
      | (.ok sink, disk) => some { sink, disk }
      | (.error _, _) => none

end XosLog.Rotation
