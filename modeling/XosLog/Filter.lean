import XosLog.Keyed
import XosLog.Level

/-!
# Per-target level filtering

A filter is a list of directives with pairwise distinct targets.  The target of
a directive is empty for the global default.
-/

namespace XosLog.Filter

/-- A single `target=level` directive. -/
structure Directive where
  target : Text
  level : Level
  deriving DecidableEq, Repr

/-- A parsed set of per-target level directives. -/
structure TargetFilter where
  directives : List Directive
  /-- A later directive with the same target has replaced the earlier one. -/
  distinct : (directives.map Directive.target).Nodup

/-- Recognise one item of the comma-separated list; `none` when it is skipped. -/
def parseItem (raw : Text) : Option Directive :=
  if raw.isEmpty then none
  else
    match raw.splitOn '=' with
    | [part0] =>
        match Level.parse part0 with
        | some level => some { target := [], level }
        | none => some { target := part0, level := .trace }
    | [part0, rest] =>
        let part1 := Text.trim rest
        if part1.isEmpty then
          if part0.isEmpty then none else some { target := part0, level := .trace }
        else
          match Level.parse part1 with
          | some level => some { target := part0, level }
          | none => none
    | _ => none

/-- The part of a spec before a `/regex` suffix. -/
def mods (spec : Text) : Text :=
  (spec.splitOn '/').headD []

/-- The directives recognised in a spec, from left to right. -/
def recognised (spec : Text) : List Directive :=
  ((mods spec).splitOn ',').filterMap fun raw => parseItem (Text.trim raw)

/-- Replace the level of the directive with the same target, or push a new one. -/
def recordDirective : List Directive → Directive → List Directive
  | [], directive => [directive]
  | existing :: rest, directive =>
      if existing.target = directive.target then
        { existing with level := directive.level } :: rest
      else existing :: recordDirective rest directive

theorem recordDirective_eq (directives : List Directive) (directive : Directive) :
    recordDirective directives directive = Keyed.upsert Directive.target directives directive := by
  induction directives with
  | nil => rfl
  | cons existing rest ih =>
      unfold recordDirective Keyed.upsert
      split
      · rename_i same
        rw [same]
      · rw [ih]

namespace TargetFilter

/-- The empty filter. -/
def empty : TargetFilter where
  directives := []
  distinct := List.nodup_nil

/-- Record one more directive. -/
def record (filter : TargetFilter) (directive : Directive) : TargetFilter where
  directives := recordDirective filter.directives directive
  distinct := by
    rw [recordDirective_eq]
    exact Keyed.nodup_upsert Directive.target filter.distinct directive

theorem record_directives (filter : TargetFilter) (directive : Directive) :
    (filter.record directive).directives =
      Keyed.upsert Directive.target filter.directives directive :=
  recordDirective_eq filter.directives directive

/-- Parse a directive string. -/
def parse (spec : Text) : TargetFilter :=
  (recognised spec).foldl record empty

/-- The global default level, if a directive without a target was given. -/
def globalDefault (filter : TargetFilter) : Option Level :=
  (filter.directives.find? fun directive => directive.target = []).map Directive.level

/-- The default level applied to targets matched by no directive. -/
def defaultLevel (filter : TargetFilter) (base : Level) : Level :=
  filter.globalDefault.getD base

end TargetFilter

/-- Whether a directive matches a target: an exact hit or a `::`-delimited
descendant. -/
def moduleMatches (directive target : Text) : Bool :=
  target == directive ||
    match directive.isPrefixOf? target with
    | some rest => "::".toList.isPrefixOf rest
    | none => false

/-- One turn of the search for the longest match, with the best one so far. -/
def consider (target : Text) (best : Option (Nat × Level)) (directive : Directive) :
    Option (Nat × Level) :=
  if directive.target.isEmpty then best
  else if moduleMatches directive.target target then
    let len := Text.len directive.target
    match best with
    | some (bestLen, _) => if len < bestLen then best else some (len, directive.level)
    | none => some (len, directive.level)
  else best

namespace TargetFilter

/-- The effective threshold level for a target. -/
def effectiveLevel (filter : TargetFilter) (target : Text) (base : Level) : Level :=
  match filter.directives.foldl (consider target) none with
  | none => filter.defaultLevel base
  | some (_, level) => level

/-- Whether a record passes the filter. -/
def enabled (filter : TargetFilter) (target : Text) (level base : Level) : Bool :=
  if level = .off then false
  else
    let effective := filter.effectiveLevel target base
    effective ≠ .off ∧ effective ≤ level

/-- The directives of a parsed filter are the recognised ones, inserted by
target. -/
theorem parse_directives (spec : Text) :
    (parse spec).directives = (recognised spec).foldl (Keyed.upsert Directive.target) [] := by
  have folded : ∀ (found : List Directive) (filter : TargetFilter),
      (found.foldl record filter).directives =
        found.foldl (Keyed.upsert Directive.target) filter.directives := by
    intro found
    induction found with
    | nil => exact fun _ => rfl
    | cons directive found ih =>
        intro filter
        rw [List.foldl_cons, ih, record_directives, List.foldl_cons]
  exact folded (recognised spec) empty

/-- The directives of a parsed filter are found under the last recognised one. -/
theorem find?_parse (spec name : Text) :
    (parse spec).directives.find? (fun directive => directive.target = name) =
      ((recognised spec).filter fun directive => directive.target = name).getLast? := by
  rw [parse_directives]
  exact Keyed.find?_foldl_upsert Directive.target (recognised spec) name

end TargetFilter

end XosLog.Filter
