import XosLog.Logger.State
import XosLog.Writer.FileSlot
import XosLog.Writer.RemoteSlot
import XosLog.Writer.Stream

/-!
# Building a logger

A builder collects settings and sinks.  Most of its methods only record a value; those
that open a file or a socket can fail and use up the builder.  `build` opens the sinks
one after another, starts the writer and settles the filter.
-/

namespace XosLog.Syslog

/-- Socket paths tried, in order, when delivering to the local daemon. -/
def defaultSyslogSockets : List Text :=
  ["/dev/log".toList, "/var/run/syslog".toList, "/var/run/log".toList]

namespace SyslogSink

/-- A sink that delivers to the paths, trying each in order. -/
def new (paths : List Text) (facility : Facility) (ident hostname : Text) (pid : Nat) :
    SyslogSink where
  paths := paths
  facility := facility
  ident := sanitizeIdent ident
  hostname := hostname
  pid := pid
  socket := none

/-- A sink that delivers to the standard sockets. -/
def «local» (facility : Facility) (ident hostname : Text) (pid : Nat) : SyslogSink :=
  new defaultSyslogSockets facility ident hostname pid

end SyslogSink

/-- The default program identity, from the file name of `argv[0]`. -/
def defaultIdent (fileName : Option Text) : Text :=
  match fileName with
  | some name => if name ≠ [] then name else "xoslog".toList
  | none => "xoslog".toList

end XosLog.Syslog

namespace XosLog.Filter.TargetFilter

/-- Read the filter from the value of an environment variable; `none` when that is unset
or blank. -/
def fromEnv (value : Option Text) : Option TargetFilter :=
  match value with
  | none => none
  | some spec => if Text.trim spec = [] then none else some (parse spec)

end XosLog.Filter.TargetFilter

namespace XosLog.Logger

open XosLog.Filter Rotation Syslog Writer

/-- Default capacity of the internal bounded queue. -/
def defaultChannelCapacity : Nat := 8192

/-- Where the logger writes its output. -/
inductive SinkSource
  | stdout
  | stderr
  | file (path : Text) (maxSize maxBackups : Nat) (interval : RotationInterval)
  | syslog (sink : SyslogSink)
  | remoteSyslog (sink : RemoteSyslogSink)
  | custom (sink : Sink)

structure LoggerBuilder where
  level : Level
  capacity : Nat
  backpressure : Backpressure
  includeLocation : Bool
  timeOffsetSeconds : Int
  json : Bool
  filter : Option TargetFilter
  readEnv : Bool
  sinks : List (SinkSource × Level)

/-- An `io::Error` of a method of the builder. -/
inductive BuildError
  | file (error : Rotation.IoError)
  | resolve (code : Int)
  | invalidInput (message : Text)
  | socket (error : Syslog.IoError)
  | spawn (code : Int)

/-- What a process knows of itself: the file name of `argv[0]`, the host name and the
process number. -/
structure Identity where
  fileName : Option Text
  hostname : Text
  pid : Nat

namespace LoggerBuilder

/-- A builder with defaults. -/
def new : LoggerBuilder where
  level := .info
  capacity := defaultChannelCapacity
  backpressure := .block
  includeLocation := true
  timeOffsetSeconds := 0
  json := false
  filter := none
  readEnv := true
  sinks := []

/-- Replace every configured sink with a single one at the most verbose level. -/
def setSingleSink (builder : LoggerBuilder) (source : SinkSource) : LoggerBuilder :=
  { builder with sinks := [(source, .trace)] }

/-- A call of a method of the builder, with what it reads from its environment. -/
inductive Call
  | level (level : Level)
  | channelCapacity (capacity : Nat)
  | backpressure (backpressure : Backpressure)
  | includeLocation (includeLocation : Bool)
  | json
  | filter (filter : TargetFilter)
  | envFilter
  | ignoreEnvFilter
  | timeOffsetSeconds (seconds : Int)
  | toStdout
  | toStderr
  | toFile (path : Text) (maxSize maxBackups : Nat) (opening : OpenEnv)
  | toFileWithInterval (path : Text) (maxSize maxBackups : Nat) (interval : RotationInterval)
      (opening : OpenEnv)
  | sink (sink : Sink)
  | addSink (sink : Sink) (minLevel : Level)
  | toSyslog (facility : Facility) (identity : Identity)
  /-- With the addresses of the host, and the answers to binding and connecting. -/
  | toRemoteSyslog (facility : Facility) (identity : Identity)
      (addresses : Except Int (List Text)) (bind connect : Option Int)

/-- Open the file, and set a sink that `build` will open again. -/
def toFileWithInterval (builder : LoggerBuilder) (path : Text) (maxSize maxBackups : Nat)
    (interval : RotationInterval) (opening : OpenEnv) (disk : Volume) :
    Except BuildError LoggerBuilder × Volume :=
  match openWith path maxSize maxBackups interval opening disk with
  | (.error error, disk) => (.error (.file error), disk)
  | (.ok _, disk) => (.ok (builder.setSingleSink (.file path maxSize maxBackups interval)), disk)

/-- Connect to the first address of a remote syslog server. -/
def toRemoteSyslog (builder : LoggerBuilder) (facility : Facility) (identity : Identity)
    (addresses : Except Int (List Text)) (bind connect : Option Int) :
    Except BuildError LoggerBuilder :=
  match addresses with
  | .error code => .error (.resolve code)
  | .ok [] => .error (.invalidInput "hostname resolved to no addresses".toList)
  | .ok (addr :: _) =>
      match RemoteSyslogSink.new bind connect addr facility (defaultIdent identity.fileName)
        identity.hostname identity.pid with
      | .error error => .error (.socket error)
      | .ok sink => .ok (builder.setSingleSink (.remoteSyslog sink))

/-- The method that is called. -/
def apply (builder : LoggerBuilder) (disk : Volume) :
    Call → Except BuildError LoggerBuilder × Volume
  | .level level => (.ok { builder with level }, disk)
  | .channelCapacity capacity => (.ok { builder with capacity }, disk)
  | .backpressure backpressure => (.ok { builder with backpressure }, disk)
  | .includeLocation includeLocation => (.ok { builder with includeLocation }, disk)
  | .json => (.ok { builder with json := true }, disk)
  | .filter filter => (.ok { builder with filter := some filter }, disk)
  | .envFilter => (.ok { builder with readEnv := true }, disk)
  | .ignoreEnvFilter => (.ok { builder with readEnv := false }, disk)
  | .timeOffsetSeconds timeOffsetSeconds => (.ok { builder with timeOffsetSeconds }, disk)
  | .toStdout => (.ok (builder.setSingleSink .stdout), disk)
  | .toStderr => (.ok (builder.setSingleSink .stderr), disk)
  | .toFile path maxSize maxBackups opening =>
      builder.toFileWithInterval path maxSize maxBackups .never opening disk
  | .toFileWithInterval path maxSize maxBackups interval opening =>
      builder.toFileWithInterval path maxSize maxBackups interval opening disk
  | .sink sink => (.ok (builder.setSingleSink (.custom sink)), disk)
  | .addSink sink minLevel =>
      (.ok { builder with sinks := builder.sinks ++ [(.custom sink, minLevel)] }, disk)
  | .toSyslog facility identity =>
      (.ok (builder.setSingleSink (.syslog (.local facility (defaultIdent identity.fileName)
        identity.hostname identity.pid))), disk)
  | .toRemoteSyslog facility identity addresses bind connect =>
      (builder.toRemoteSyslog facility identity addresses bind connect, disk)

/-- A chain of calls, up to the first that fails. -/
def configure : LoggerBuilder → Volume → List Call → Except BuildError LoggerBuilder × Volume
  | builder, disk, [] => (.ok builder, disk)
  | builder, disk, call :: calls =>
      match builder.apply disk call with
      | (.error error, disk) => (.error error, disk)
      | (.ok builder, disk) => builder.configure disk calls

/-! ## Starting the logger -/

/-- What `build` and the writer thread meet: the opening of each file, the answers to the
sinks, by the number of the slot, and the filter variable. -/
structure BuildEnv where
  opening : Nat → OpenEnv
  files : Nat → Nat → WriteEnv
  /-- What the other sinks and other processes do to the disk between the calls of a slot. -/
  others : Nat → Nat → Volume → Volume
  stdout : Nat → StreamVerdicts
  stderr : Nat → StreamVerdicts
  os : Os
  udp : Udp
  spawn : Option Int
  /-- The value of `XOSLOG`. -/
  xoslog : Option Text
  displayF64 : F64 → Text

/-- The boxed sink of a source, in slot `k`. -/
def openSource (env : BuildEnv) (k : Nat) (disk : Volume) :
    SinkSource → Except BuildError Sink × Volume
  | .stdout => (.ok (stdoutSink env.stdout), disk)
  | .stderr => (.ok (stderrSink env.stderr), disk)
  | .file path maxSize maxBackups interval =>
      match openWith path maxSize maxBackups interval (env.opening k) disk with
      | (.error error, disk) => (.error (.file error), disk)
      | (.ok sink, disk) => (.ok (fileSink (env.files k) (env.others k) ⟨sink, disk⟩), disk)
  | .syslog sink => (.ok ((syslogDevice env.os).boxed ⟨sink, []⟩), disk)
  | .remoteSyslog sink => (.ok ((remoteDevice env.udp).boxed ⟨sink, []⟩), disk)
  | .custom sink => (.ok sink, disk)

/-- The loop over the sources, from slot `k` on. -/
def openSources (env : BuildEnv) :
    Nat → Volume → List (SinkSource × Level) → Except BuildError (List SinkSlot) × Volume
  | _, disk, [] => (.ok [], disk)
  | k, disk, (source, minLevel) :: sources =>
      match openSource env k disk source with
      | (.error error, disk) => (.error error, disk)
      | (.ok sink, disk) =>
          match openSources env (k + 1) disk sources with
          | (.error error, disk) => (.error error, disk)
          | (.ok slots, disk) => (.ok (.new sink minLevel :: slots), disk)

/-- The filter of the logger. -/
def resolveFilter (builder : LoggerBuilder) (value : Option Text) : TargetFilter :=
  match builder.filter with
  | some filter => filter
  | none =>
      if builder.readEnv then (TargetFilter.fromEnv value).getD .empty else .empty

/-- The sources to open: a builder with no sink writes to standard output. -/
def sources (builder : LoggerBuilder) : List (SinkSource × Level) :=
  if builder.sinks = [] then [(.stdout, .trace)] else builder.sinks

/-- Open the sinks and spawn the writer thread. -/
def build (builder : LoggerBuilder) (env : BuildEnv) (disk : Volume) :
    Except BuildError Setup × Volume :=
  match openSources env 0 disk builder.sources with
  | (.error error, disk) => (.error error, disk)
  | (.ok slots, disk) =>
      match env.spawn with
      | some code => (.error (.spawn code), disk)
      | none =>
          (.ok {
            capacity := builder.capacity
            backpressure := builder.backpressure
            level := builder.level
            filter := builder.resolveFilter env.xoslog
            timeOffsetSeconds := builder.timeOffsetSeconds
            format := {
              json := builder.json
              includeLocation := builder.includeLocation
              displayF64 := env.displayF64 }
            slots }, disk)

end LoggerBuilder

end XosLog.Logger
