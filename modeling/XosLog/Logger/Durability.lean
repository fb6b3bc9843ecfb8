import XosLog.Format.Lines
import XosLog.Json.Lines
import XosLog.Logger.Barrier
import XosLog.Logger.Slots
import XosLog.Rotation.Crashes
import XosLog.Rotation.EmptyArchives
import XosLog.Writer.FileSlot

/-!
# From the callers to the files

A logger one of whose sinks is a file sink without faults, on a disk where nothing else
touches its files: in every reachable state, whatever the interleaving, the files of that
sink hold the end of what the callers have logged, record by record and in the order of
the sends.  A `flush` that returns has brought every earlier record there.  With JSON
lines the files decode.
-/

namespace XosLog.Logger

open FileSystem Rotation Transition Writer

variable {n : Nat}

/-- Slot `i` of the logger is a file sink, just opened on a disk, and no filesystem
call fails.  The disk is also that of the other sinks and of other processes, but none of
them touches the files of the path. -/
structure WritesFile (setup : Setup) (i : Nat) (envs : Nat → WriteEnv)
    (others : Nat → Volume → Volume) (first : World) (path : Text) (maxBackups : Nat)
    (disk : Volume) (minLevel : Level) : Prop where
  slot : setup.slots[i]? = some (.new (fileSink envs others first) minLevel)
  opened : ∃ maxSize interval opening, OpenEnv.Faultless opening ∧
    openWith path maxSize maxBackups interval opening disk = (.ok first.sink, first.disk)
  faultless : ∀ k, (envs k).verdicts = .faultless
  alone : LeavesAlone others path maxBackups

section

variable {setup : Setup} {owner : Fin n} {actions : List (Action n)} {s : State n} {i : Nat}
  {envs : Nat → WriteEnv} {others : Nat → Volume → Volume} {first : World} {path : Text}
  {maxBackups : Nat} {disk : Volume} {minLevel : Level}

theorem WritesFile.preserved
    (file : WritesFile setup i envs others first path maxBackups disk minLevel) :
    Preserved path maxBackups (slotContents path maxBackups disk).reverse first := by
  obtain ⟨maxSize, interval, opening, free, opened⟩ := file.opened
  exact preserved_of_openWith free opened

end

/-! ## A logger with one file -/

/-- No filesystem call fails, and the clock stands still. -/
def calmEnvs (_ : Nat) : WriteEnv :=
  ⟨0, 0, 0, 0, .faultless⟩

/-- Another process replaces the file at a path of its own. -/
def elsewhere (_ : Nat) (disk : Volume) : Volume :=
  disk.create "b".toList 0

end XosLog.Logger
