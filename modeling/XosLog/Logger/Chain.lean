import Mathlib.Data.List.DropRight
import XosLog.Logger.Builder

/-!
# Chains of calls

A chain of calls of the builder has a normal form: the last call for a setting counts,
and the sinks are that of the last call that replaced them all and those added since.
-/

namespace XosLog.Logger

open XosLog.Filter Rotation Writer

namespace LoggerBuilder

/-! ## The calls of a chain -/

theorem configure_append (builder : LoggerBuilder) (disk : Volume) (first second : List Call) :
    builder.configure disk (first ++ second) =
      match builder.configure disk first with
      | (.error error, disk) => (.error error, disk)
      | (.ok builder, disk) => builder.configure disk second := by
  induction first generalizing builder disk with
  | nil => rfl
  | cons call first inductionHypothesis =>
      rw [List.cons_append, configure, configure]
      generalize builder.apply disk call = applied
      obtain ⟨result, disk⟩ := applied
      cases result with
      | error error => rfl
      | ok builder => exact inductionHypothesis builder disk

/-- The last value that a chain sets. -/
def lastOf {α : Type} (sets : Call → Option α) (calls : List Call) (unset : α) : α :=
  (calls.filterMap sets).getLast?.getD unset

@[simp]
theorem lastOf_nil {α : Type} (sets : Call → Option α) (unset : α) : lastOf sets [] unset = unset :=
  rfl

@[simp]
theorem lastOf_concat {α : Type} (sets : Call → Option α) (calls : List Call) (call : Call)
    (unset : α) :
    lastOf sets (calls ++ [call]) unset = (sets call).getD (lastOf sets calls unset) := by
  rw [lastOf, lastOf, List.filterMap_append]
  cases set : sets call <;> simp [set]

/-- The source of a call that replaces the sinks and succeeds. -/
def Call.replaces : Call → Option SinkSource
  | .toStdout => some .stdout
  | .toStderr => some .stderr
  | .toFile path maxSize maxBackups _ => some (.file path maxSize maxBackups .never)
  | .toFileWithInterval path maxSize maxBackups interval _ =>
      some (.file path maxSize maxBackups interval)
  | .sink custom => some (.custom custom)
  | .toSyslog facility identity =>
      some (.syslog (.local facility (Syslog.defaultIdent identity.fileName) identity.hostname
        identity.pid))
  | .toRemoteSyslog facility identity (.ok (addr :: _)) _ _ =>
      some (.remoteSyslog ⟨⟨addr⟩, facility,
        Syslog.sanitizeIdent (Syslog.defaultIdent identity.fileName), identity.hostname,
        identity.pid⟩)
  | _ => none

/-- The sink of a call that adds one. -/
def Call.adds : Call → Option (SinkSource × Level)
  | .addSink custom minLevel => some (.custom custom, minLevel)
  | _ => none

/-- The sinks of a chain. -/
def sinksOf (calls : List Call) : List (SinkSource × Level) :=
  ((calls.filterMap Call.replaces).getLast?.map fun source => (source, .trace)).toList ++
    (calls.rtakeWhile fun call => call.replaces.isNone).filterMap Call.adds

theorem sinksOf_concat (calls : List Call) (call : Call) :
    sinksOf (calls ++ [call]) =
      match call.replaces with
      | some source => [(source, .trace)]
      | none => sinksOf calls ++ call.adds.toList := by
  rw [sinksOf, List.filterMap_append]
  cases replaced : call.replaces with
  | some source =>
      rw [List.rtakeWhile_concat_neg _ _ _ (by simp [replaced])]
      simp [replaced]
  | none =>
      rw [List.rtakeWhile_concat_pos _ _ _ (by simp [replaced]), List.filterMap_append, sinksOf]
      cases added : call.adds <;> simp [replaced, added]

/-- The builder that a chain leads to. -/
def ofCalls (calls : List Call) : LoggerBuilder where
  level := lastOf (fun | .level level => some level | _ => none) calls .info
  capacity := lastOf (fun | .channelCapacity capacity => some capacity | _ => none) calls
    defaultChannelCapacity
  backpressure := lastOf (fun | .backpressure backpressure => some backpressure | _ => none)
    calls .block
  includeLocation := lastOf
    (fun | .includeLocation includeLocation => some includeLocation | _ => none) calls true
  timeOffsetSeconds := lastOf (fun | .timeOffsetSeconds seconds => some seconds | _ => none)
    calls 0
  json := lastOf (fun | .json => some true | _ => none) calls false
  filter := lastOf (fun | .filter filter => some (some filter) | _ => none) calls none
  readEnv := lastOf (fun | .envFilter => some true | .ignoreEnvFilter => some false | _ => none)
    calls true
  sinks := sinksOf calls

theorem toFileWithInterval_ok {builder next : LoggerBuilder} {path : Text}
    {maxSize maxBackups : Nat} {interval : RotationInterval} {opening : OpenEnv}
    {disk after : Volume}
    (opened : builder.toFileWithInterval path maxSize maxBackups interval opening disk =
      (.ok next, after)) :
    next = builder.setSingleSink (.file path maxSize maxBackups interval) := by
  rw [toFileWithInterval] at opened
  split at opened
  · cases opened
  · cases opened
    rfl

/-- One more call. -/
theorem apply_ofCalls {calls : List Call} {call : Call} {disk after : Volume}
    {builder : LoggerBuilder} (applied : (ofCalls calls).apply disk call = (.ok builder, after)) :
    builder = ofCalls (calls ++ [call]) := by
  cases call with
  | toFile | toFileWithInterval =>
      rw [toFileWithInterval_ok applied]
      simp [ofCalls, sinksOf_concat, Call.replaces, setSingleSink]
  | toRemoteSyslog facility identity addresses bind connect =>
      rcases addresses with _ | (_ | ⟨addr, _⟩)
      · cases applied
      · cases applied
      · cases bind with
        | some code => cases applied
        | none =>
            cases connect with
            | some code => cases applied
            | none =>
                cases applied
                simp [ofCalls, sinksOf_concat, Call.replaces, setSingleSink]
  | _ =>
      cases applied
      simp [ofCalls, sinksOf_concat, Call.replaces, Call.adds, setSingleSink]

/-- The normal form of a chain. -/
theorem configure_ofCalls {calls : List Call} {disk after : Volume} {builder : LoggerBuilder}
    (configured : new.configure disk calls = (.ok builder, after)) : builder = ofCalls calls := by
  induction calls using List.reverseRecOn generalizing builder after with
  | nil =>
      cases configured
      rfl
  | append_singleton calls call inductionHypothesis =>
      rw [configure_append] at configured
      split at configured
      · cases configured
      · rename_i earlier middle reached
        obtain rfl := inductionHypothesis reached
        rw [configure] at configured
        split at configured
        · cases configured
        · rename_i applied
          cases configured
          exact apply_ofCalls applied

end LoggerBuilder

end XosLog.Logger
