import XosLog.Logger.Chain
import XosLog.Logger.Durability

/-!
# What has been built

Building opens files and changes none, whether it succeeds or not.  A logger that has
been built is the one of its chain's normal form, and with its runs what the callers log
is followed from the builder to the files and to standard output.
-/

namespace XosLog.Logger

open FileSystem XosLog.Filter Rotation Transition Writer

/-- The path of a source that is a file. -/
def SinkSource.path? : SinkSource → Option Text
  | .file path .. => some path
  | _ => none

namespace LoggerBuilder

/-! ## The files -/

/-- The files under some of the paths have come into being; nothing else has changed. -/
def OpensOnly (paths : List Text) (disk after : Volume) : Prop :=
  ∀ path, after.read path = disk.read path ∨
    (path ∈ paths ∧ disk.read path = none ∧ after.read path = some [])

theorem OpensOnly.refl (paths : List Text) (disk : Volume) : OpensOnly paths disk disk :=
  fun _ => .inl rfl

theorem OpensOnly.trans {paths : List Text} {disk middle after : Volume}
    (first : OpensOnly paths disk middle) (second : OpensOnly paths middle after) :
    OpensOnly paths disk after := by
  intro path
  rcases first path with same | ⟨member, absent, created⟩
  · rw [← same]
    exact second path
  · rcases second path with same | ⟨_, stillAbsent, _⟩
    · exact .inr ⟨member, absent, same.trans created⟩
    · rw [created] at stillAbsent
      contradiction

theorem OpensOnly.mono {paths more : List Text} {disk after : Volume} (within : paths ⊆ more)
    (opens : OpensOnly paths disk after) : OpensOnly more disk after := by
  intro path
  exact (opens path).imp_right fun created => ⟨within created.1, created.2⟩

theorem OpensOnly.slotContents {paths : List Text} {disk after : Volume}
    (opens : OpensOnly paths disk after) (path : Text) (maxBackups : Nat) :
    slotContents path maxBackups after = slotContents path maxBackups disk := by
  apply List.map_congr_left
  intro k _
  rcases opens (slotPath path k) with same | ⟨_, absent, created⟩
  · rw [same]
  · rw [absent, created]
    rfl

theorem opensOnly_openWith (path : Text) (maxSize maxBackups : Nat) (interval : RotationInterval)
    (opening : OpenEnv) (disk : Volume) :
    OpensOnly [path] disk (openWith path maxSize maxBackups interval opening disk).2 := by
  rw [openWith, Disk.openAppend]
  split
  · split
    · exact .refl _ _
    · rename_i opened
      split at opened
      · split at opened
        · cases opened
          exact .refl _ _
        · rename_i absent
          cases opened
          intro other
          by_cases same : other = path
          · subst same
            refine .inr ⟨List.mem_singleton_self _, ?_, Disk.read_create_self _ _ _⟩
            rw [Disk.read, absent]
            rfl
          · exact .inl (Disk.read_create_of_ne disk same _)
      · cases opened
  · exact .refl _ _

/-- The path of a call that opens a file. -/
def Call.path? : Call → Option Text
  | .toFile path .. | .toFileWithInterval path .. => some path
  | _ => none

theorem opensOnly_apply (builder : LoggerBuilder) (disk : Volume) (call : Call) :
    OpensOnly call.path?.toList disk (builder.apply disk call).2 := by
  have opens : ∀ path maxSize maxBackups interval opening, OpensOnly [path] disk
      (builder.toFileWithInterval path maxSize maxBackups interval opening disk).2 := by
    intro path maxSize maxBackups interval opening
    have opened := opensOnly_openWith path maxSize maxBackups interval opening disk
    rw [toFileWithInterval]
    generalize openWith path maxSize maxBackups interval opening disk = result at opened ⊢
    obtain ⟨result, after⟩ := result
    cases result <;> exact opened
  cases call with
  | toFile | toFileWithInterval => exact opens _ _ _ _ _
  | _ => exact .refl _ _

theorem opensOnly_configure (builder : LoggerBuilder) (disk : Volume) (calls : List Call) :
    OpensOnly (calls.filterMap Call.path?) disk (builder.configure disk calls).2 := by
  induction calls generalizing builder disk with
  | nil => exact .refl _ _
  | cons call calls inductionHypothesis =>
      have first := opensOnly_apply builder disk call
      have split : (call :: calls).filterMap Call.path? =
          call.path?.toList ++ calls.filterMap Call.path? := by
        cases opened : call.path? <;> simp [opened]
      rw [configure, split]
      generalize builder.apply disk call = applied at first ⊢
      obtain ⟨result, middle⟩ := applied
      cases result with
      | error error => exact first.mono (List.subset_append_left _ _)
      | ok next =>
          exact (first.mono (List.subset_append_left _ _)).trans
            ((inductionHypothesis next middle).mono (List.subset_append_right _ _))

theorem opensOnly_openSource (env : BuildEnv) (k : Nat) (disk : Volume) (source : SinkSource) :
    OpensOnly source.path?.toList disk (openSource env k disk source).2 := by
  cases source with
  | file path maxSize maxBackups interval =>
      have opened := opensOnly_openWith path maxSize maxBackups interval (env.opening k) disk
      rw [openSource]
      generalize openWith path maxSize maxBackups interval (env.opening k) disk = result
        at opened ⊢
      obtain ⟨result, after⟩ := result
      cases result <;> exact opened
  | _ => exact .refl _ _

theorem opensOnly_openSources (env : BuildEnv) (k : Nat) (disk : Volume)
    (sources : List (SinkSource × Level)) :
    OpensOnly (sources.filterMap fun source => source.1.path?) disk
      (openSources env k disk sources).2 := by
  induction sources generalizing k disk with
  | nil => exact .refl _ _
  | cons source sources inductionHypothesis =>
      obtain ⟨source, minLevel⟩ := source
      have first := opensOnly_openSource env k disk source
      have split : ((source, minLevel) :: sources).filterMap (fun source => source.1.path?) =
          source.path?.toList ++ sources.filterMap fun source => source.1.path? := by
        cases opened : source.path? <;> simp [opened]
      rw [openSources, split]
      generalize openSource env k disk source = opened at first ⊢
      obtain ⟨result, middle⟩ := opened
      cases result with
      | error error => exact first.mono (List.subset_append_left _ _)
      | ok sink =>
          have whole := (first.mono (List.subset_append_left _ _)).trans
            ((inductionHypothesis (k + 1) middle).mono (List.subset_append_right _ _))
          dsimp only
          generalize openSources env (k + 1) middle sources = rest at whole ⊢
          obtain ⟨result, after⟩ := rest
          cases result <;> exact whole

/-! ## The logger -/

/-- A chain of calls that ends with `build`. -/
def chain (env : BuildEnv) (disk : Volume) (calls : List Call) :
    Except BuildError Setup × Volume :=
  match new.configure disk calls with
  | (.error error, disk) => (.error error, disk)
  | (.ok builder, disk) => builder.build env disk

theorem Call.path?_of_replaces {call : Call} {source : SinkSource}
    (replaced : call.replaces = some source) : source.path? = call.path? := by
  cases call with
  | toRemoteSyslog facility identity addresses bind connect =>
      rcases addresses with _ | (_ | ⟨addr, _⟩) <;> cases replaced
      rfl
  | _ => cases replaced <;> rfl

theorem Call.path?_of_adds {call : Call} {source : SinkSource × Level}
    (added : call.adds = some source) : source.1.path? = none := by
  cases call <;> cases added
  rfl

/-- The files among the sources are those of calls. -/
theorem paths_sources (calls : List Call) :
    ((ofCalls calls).sources.filterMap fun source => source.1.path?) ⊆
      calls.filterMap Call.path? := by
  have sinks : ((sinksOf calls).filterMap fun source => source.1.path?) ⊆
      calls.filterMap Call.path? := by
    induction calls using List.reverseRecOn with
    | nil => exact List.nil_subset _
    | append_singleton calls call inductionHypothesis =>
        rw [sinksOf_concat, List.filterMap_append]
        cases replaced : call.replaces with
        | some source =>
            have path := Call.path?_of_replaces replaced
            apply List.subset_append_of_subset_right
            cases opened : source.path? <;> simp [opened, ← path]
        | none =>
            apply List.subset_append_of_subset_left
            dsimp only
            cases added : call.adds with
            | none => simpa using inductionHypothesis
            | some source => simpa [Call.path?_of_adds added] using inductionHypothesis
  rw [sources]
  split
  · exact List.nil_subset _
  · exact sinks

theorem opensOnly_build (builder : LoggerBuilder) (env : BuildEnv) (disk : Volume) :
    OpensOnly (builder.sources.filterMap fun source => source.1.path?) disk
      (builder.build env disk).2 := by
  have opens := opensOnly_openSources env 0 disk builder.sources
  rw [build]
  generalize openSources env 0 disk builder.sources = opened at opens ⊢
  obtain ⟨result, after⟩ := opened
  cases result with
  | error error => exact opens
  | ok slots =>
      dsimp only
      split <;> exact opens

theorem opensOnly_chain (env : BuildEnv) (disk : Volume) (calls : List Call) :
    OpensOnly (calls.filterMap Call.path?) disk (chain env disk calls).2 := by
  have first := opensOnly_configure new disk calls
  rw [chain]
  cases configured : new.configure disk calls with
  | mk result middle =>
      rw [configured] at first
      cases result with
      | error error => exact first
      | ok builder =>
          obtain rfl := configure_ofCalls configured
          exact first.trans ((opensOnly_build _ env middle).mono (paths_sources calls))

/-- Each slot has the sink of its source, opened in turn. -/
theorem slots_of_openSources {env : BuildEnv} {k : Nat} {disk after : Volume}
    {sources : List (SinkSource × Level)} {slots : List SinkSlot}
    (opened : openSources env k disk sources = (.ok slots, after)) :
    slots.length = sources.length ∧ ∀ i source minLevel, sources[i]? = some (source, minLevel) →
      ∃ earlier sink later,
        OpensOnly (sources.filterMap fun source => source.1.path?) disk earlier ∧
        openSource env (k + i) earlier source = (.ok sink, later) ∧
        slots[i]? = some (.new sink minLevel) := by
  induction sources generalizing k disk slots with
  | nil =>
      cases opened
      exact ⟨rfl, fun i _ _ found => by simp at found⟩
  | cons first sources inductionHypothesis =>
      obtain ⟨source, minLevel⟩ := first
      have firstOpens := opensOnly_openSource env k disk source
      have firstPaths : source.path?.toList ⊆
          ((source, minLevel) :: sources).filterMap fun source => source.1.path? := by
        cases opens : source.path? <;> simp [opens]
      have otherPaths : (sources.filterMap fun source => source.1.path?) ⊆
          ((source, minLevel) :: sources).filterMap fun source => source.1.path? := by
        cases opens : source.path? <;> simp [opens]
      rw [openSources] at opened
      split at opened
      · cases opened
      · rename_i sink middle firstOpened
        split at opened
        · cases opened
        · rename_i rest last restOpened
          cases opened
          rw [firstOpened] at firstOpens
          obtain ⟨length, all⟩ := inductionHypothesis restOpened
          refine ⟨congrArg (· + 1) length, ?_⟩
          rintro (_ | i) other floor found
          · cases found
            exact ⟨disk, sink, middle, .refl _ _, firstOpened, rfl⟩
          · obtain ⟨earlier, later, next, opens, isOpen, reached⟩ := all i other floor found
            rw [Nat.add_right_comm] at isOpen
            exact ⟨earlier, later, next,
              (firstOpens.mono firstPaths).trans (opens.mono otherPaths), isOpen, reached⟩

/-- A logger has the settings of a builder, and each of its slots the sink of a source,
opened while only the files under some paths have come into being. -/
structure Built (builder : LoggerBuilder) (env : BuildEnv) (paths : List Text) (disk : Volume)
    (setup : Setup) : Prop where
  capacity_eq : setup.capacity = builder.capacity
  backpressure_eq : setup.backpressure = builder.backpressure
  level_eq : setup.level = builder.level
  filter_eq : setup.filter = builder.resolveFilter env.xoslog
  timeOffsetSeconds_eq : setup.timeOffsetSeconds = builder.timeOffsetSeconds
  format_eq : setup.format =
    { json := builder.json, includeLocation := builder.includeLocation,
      displayF64 := env.displayF64 }
  length_slots : setup.slots.length = builder.sources.length
  slots : ∀ i source minLevel, builder.sources[i]? = some (source, minLevel) →
    ∃ earlier sink later, OpensOnly paths disk earlier ∧
      openSource env i earlier source = (.ok sink, later) ∧
      setup.slots[i]? = some (.new sink minLevel)

theorem built_of_build {builder : LoggerBuilder} {env : BuildEnv} {disk after : Volume}
    {setup : Setup} (built : builder.build env disk = (.ok setup, after)) :
    Built builder env (builder.sources.filterMap fun source => source.1.path?) disk setup := by
  rw [build] at built
  split at built
  · cases built
  · rename_i slots middle opened
    split at built
    · cases built
    · cases built
      obtain ⟨length, all⟩ := slots_of_openSources opened
      refine ⟨rfl, rfl, rfl, rfl, rfl, rfl, length, ?_⟩
      intro i source minLevel found
      have slot := all i source minLevel found
      rwa [Nat.zero_add] at slot

theorem built_of_chain {calls : List Call} {env : BuildEnv} {disk : Volume} {setup : Setup}
    (built : (chain env disk calls).1 = .ok setup) :
    Built (ofCalls calls) env (calls.filterMap Call.path?) disk setup := by
  have opens := opensOnly_configure new disk calls
  rw [chain] at built
  cases configured : new.configure disk calls with
  | mk result middle =>
      rw [configured] at opens built
      cases result with
      | error error => cases built
      | ok builder =>
          obtain rfl := configure_ofCalls configured
          have last := built_of_build (Prod.ext built rfl)
          refine { last with slots := ?_ }
          intro i source minLevel found
          obtain ⟨earlier, sink, later, opensLater, isOpen, reached⟩ :=
            last.slots i source minLevel found
          exact ⟨earlier, sink, later, opens.trans (opensLater.mono (paths_sources calls)),
            isOpen, reached⟩

/-- A chain of calls that ends with `build`, whether it succeeds or not, changes no file
but for creating empty ones at the paths of its calls; and the logger that it builds has
the settings and the sinks of the chain's normal form.  Its filter is the last one that
was given, or else what the variable says if the last call on that did not ignore it. -/
theorem chain_builds (env : BuildEnv) (disk : Volume) (calls : List Call) :
    OpensOnly (calls.filterMap Call.path?) disk (chain env disk calls).2 ∧
      ∀ setup, (chain env disk calls).1 = .ok setup →
        Built (ofCalls calls) env (calls.filterMap Call.path?) disk setup :=
  ⟨opensOnly_chain env disk calls, fun _ built => built_of_chain built⟩

/-! ## Its runs -/

section

variable {n : Nat} {calls : List Call} {env : BuildEnv} {disk : Volume} {setup : Setup}
  {owner : Fin n} {actions : List (Action n)} {s : State n} {i : Nat} {minLevel : Level}

/-- From the builder to standard output.  In every run of a logger that a chain of calls
has built with standard output, as it is without any sink, the output is made of one
chunk for each of the handled records that the sink was called with, in order: the whole
record if the call succeeded, a part of it otherwise. -/
theorem built_stdout_holds_log (built : (chain env disk calls).1 = .ok setup)
    (source : (ofCalls calls).sources[i]? = some (.stdout, minLevel))
    (ran : run (step setup) (State.init setup owner) actions = some s) :
    ∃ slot diverted chunks, s.slots[i]? = some slot ∧
      Divided setup.format minLevel (FlushCanPanic setup.slots)
        ((recordsOf (observed (step setup) served (State.init setup owner) actions)).map
          Prod.snd) s.stderr slot.sink.answers diverted ∧
      List.Forall₂ StreamedAs slot.sink.answers chunks ∧
      (streamDevice env.stdout).replay [] slot.sink.calls = chunks.flatten := by
  obtain ⟨earlier, sink, later, _, isOpen, reached⟩ :=
    (built_of_chain built).slots i _ minLevel source
  cases isOpen
  obtain ⟨slot, written, _, diverted, found, within, fed⟩ := fed_of_run rfl reached ran
  obtain ⟨chunks, all, out⟩ := streamed_replay fed.behave_eq
  exact ⟨slot, diverted, chunks, found, fed.divided within, all, out⟩

end

/-! ## A chain -/

/-- An environment in which no file fails, while another process uses the disk as well.
The second write to standard output fails, and the variable asks for more. -/
def calmEnv : BuildEnv where
  opening _ := ⟨true, true, true, true, 0, 0⟩
  files _ := calmEnvs
  others _ := elsewhere
  stdout k := ⟨if k = 1 then some 3 else none, true⟩
  stderr _ := ⟨none, true⟩
  os _ _ := none
  udp _ _ _ := none
  spawn := none
  xoslog := some "debug".toList
  displayF64 := Json.sampleDisplay

/-- A file replaces standard output. -/
def fileCalls : List Call :=
  [.toStdout, .level .warn, .toFile "a".toList 1 1 ⟨true, true, true, true, 0, 0⟩,
    .channelCapacity 4]

/-- What the chain builds. -/
def fileSetup : Setup where
  capacity := 4
  backpressure := .block
  level := .warn
  filter := .parse "debug".toList
  timeOffsetSeconds := 0
  format := { json := false, includeLocation := true, displayF64 := Json.sampleDisplay }
  slots := [.new (fileSink calmEnvs elsewhere newWorld) .trace]

/-- Standard output replaces the file, with a sink behind it that panics when it is
flushed. -/
def stdoutCalls : List Call :=
  fileCalls ++ [.toStdout, .json, .addSink ⟨flushPanics, []⟩ .info]

def stdoutSetup : Setup :=
  { fileSetup with
    format := { fileSetup.format with json := true }
    slots := [.new (stdoutSink calmEnv.stdout) .trace, .new ⟨flushPanics, []⟩ .info] }

/-- The second of the records fails, and the last one is diverted. -/
theorem built_stdout_holds_log_stdoutCalls :
    ∃ (s : State 1) (slot : SinkSlot) (diverted : List LogEntry) (chunks : List Bytes),
      (chain calmEnv Disk.empty stdoutCalls).1 = .ok stdoutSetup ∧ s.slots[0]? = some slot ∧
      slot.sink.answers.map Prod.snd = [.ok, .err, .ok] ∧
      Divided stdoutSetup.format .trace (FlushCanPanic stdoutSetup.slots)
        ((recordsOf (observed (step stdoutSetup) served (State.init stdoutSetup 0)
          (mixedRun (0 : Fin 1) warnEntry))).map Prod.snd) s.stderr slot.sink.answers diverted ∧
      List.Forall₂ StreamedAs slot.sink.answers chunks ∧
      (streamDevice calmEnv.stdout).replay [] slot.sink.calls = chunks.flatten := by
  have built : (chain calmEnv Disk.empty stdoutCalls).1 = .ok stdoutSetup := rfl
  obtain ⟨s, ran, seen⟩ := Option.map_eq_some_iff.mp (by decide +kernel :
    (run (step stdoutSetup) (State.init stdoutSetup 0) (mixedRun (0 : Fin 1) warnEntry)).map
      (fun s => s.slots[0]?.map fun slot => slot.sink.answers.map Prod.snd) =
    some (some [.ok, .err, .ok]))
  obtain ⟨slot, diverted, chunks, found, divided, all, out⟩ :=
    @built_stdout_holds_log 1 stdoutCalls calmEnv Disk.empty stdoutSetup 0 _ s 0 .trace built rfl
      ran
  rw [found] at seen
  exact ⟨s, slot, diverted, chunks, built, found, Option.some.inj seen, divided, all, out⟩

end LoggerBuilder

end XosLog.Logger
