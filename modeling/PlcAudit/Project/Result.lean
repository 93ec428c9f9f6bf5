import PlcAudit.Config.Basic
import PlcAudit.Graph.Project
import PlcAudit.Number.Fixed
import PlcAudit.Usage

/-!
What the analyses of a project found together, and how the project scores.
-/

namespace PlcAudit.Project

open PlcAudit.Graph

/-- Which analyses run, and how. -/
structure Options where
  usage : Bool := true
  dependencies : Bool := true
  compilation : Bool := true
  ioMapping : Bool := true
  parallel : Bool := true
  continueOnError : Bool := true
  strict : Bool := false
  deriving DecidableEq, Inhabited, Repr

def Options.ofConfig (config : Config) : Options :=
  { parallel := config.parallel
    continueOnError := config.continueOnError
    strict := config.strictInitialization }

/-- What a tool outside this library reports about a project. -/
structure ExternalReport where
  errors : List String := []
  warnings : List String := []
  issues : List Issue := []
  deriving DecidableEq, Inhabited, Repr

def ExternalReport.isSuccess (report : ExternalReport) : Bool :=
  report.errors.isEmpty

/-- An analysis that failed. -/
structure Failure where
  analysis : String
  message : String
  deriving DecidableEq, Inhabited, Repr

/-- Why there is no complete result. -/
inductive AnalysisError where
  | cancelled (completed total : Nat)
  | failed (failure : Failure)
  deriving DecidableEq, Inhabited, Repr

namespace AnalysisError

def name : AnalysisError → String
  | .cancelled .. => "Cancelled"
  | .failed _ => "SubAnalysisFailed"

def message : AnalysisError → String
  | .cancelled completed total =>
    s!"analysis cancelled after {completed} of {total} unit(s)"
  | .failed failure => s!"{failure.analysis} analysis failed: {failure.message}"

end AnalysisError

structure Result where
  project : String
  completed : Bool := false
  compilation : Option ExternalReport := none
  usage : Option Usage.Analysis := none
  dependencies : Option Dependencies := none
  ioMapping : Option ExternalReport := none
  failures : List Failure := []
  cancelled : Bool := false

namespace Result

/-- Uninitialised reads and cycles. -/
def criticalCount (result : Result) : Nat :=
  ((result.usage.map fun found => found.uninitialized.length).getD 0) +
    ((result.dependencies.map fun found => found.cycles.length).getD 0)

/-- Nothing failed, was stopped or is critical. Unused variables and dead code do not count. -/
def isSuccess (result : Result) : Bool :=
  result.compilation.all ExternalReport.isSuccess &&
    result.ioMapping.all ExternalReport.isSuccess &&
    result.criticalCount == 0 && result.failures.isEmpty && !result.cancelled

private def externalCount (report : Option ExternalReport) : Nat :=
  (report.map fun found => found.errors.length + found.warnings.length).getD 0

def totalIssues (result : Result) : Nat :=
  externalCount result.compilation + ((result.usage.map (·.totalIssues)).getD 0) +
    ((result.dependencies.map (·.totalIssues)).getD 0) + externalCount result.ioMapping

/-- What is left of 100 points, but no less than nothing. -/
private def points (penalty : Float) : Float :=
  max (100.0 - penalty) 0.0

private def counted (items : Nat) : Float := items.toUInt64.toFloat

def compilationScore (result : Result) : Float :=
  match result.compilation with
  | none => 100.0
  | some report =>
    if report.isSuccess then points (counted report.warnings.length * 2.0)
    else points (counted report.errors.length * 10.0)

def variableScore (result : Result) : Float :=
  match result.usage with
  | none => 100.0
  | some found =>
    points (counted found.unused.length * 5.0 + counted found.uninitialized.length * 10.0 +
      counted found.deadCode.length * 3.0)

/-- Cycles cost 15 points each; without cycles, calls cost 2 points for every level beyond ten. -/
def dependencyScore (result : Result) : Float :=
  match result.dependencies with
  | none => 100.0
  | some found =>
    if !found.cycles.isEmpty then points (counted found.cycles.length * 15.0)
    else match found.maxDepth with
      | .bounded depth => points (counted (depth - 10) * 2.0)
      | .undefined _ => 0.0

def ioScore (result : Result) : Float :=
  match result.ioMapping with
  | none => 100.0
  | some report =>
    max (100.0 - counted report.errors.length * 10.0 - counted report.warnings.length * 3.0) 0.0

/-- The weighted mean of the scores. An analysis that did not run has the full score. -/
def score (result : Result) : Float :=
  result.compilationScore * 0.30 + result.variableScore * 0.25 + result.dependencyScore * 0.25 +
    result.ioScore * 0.20

/-- One line about the whole. -/
def summary (result : Result) : String :=
  if result.isSuccess then
    s!"All analyses passed. Quality score: {Number.fixed 1 result.score}/100"
  else
    let part := fun (shown : Bool) (label : String) (count : Nat) =>
      if shown then s!" ({label}: {count})" else ""
    let errors := ((result.compilation.map fun report => report.errors.length)).getD 0
    let usage := (result.usage.map (·.totalIssues)).getD 0
    let cycles := (result.dependencies.map fun found => found.cycles.length).getD 0
    let failed := result.failures.length
    s!"{result.totalIssues} issue(s) found" ++ part (0 < errors) "compile errors" errors ++
      part (0 < usage) "variable issues" usage ++
      part (0 < cycles) "circular references" cycles ++
      part (0 < failed) "failed analyses" failed ++
      if result.cancelled then " (cancelled)" else ""

/-- All findings as issues. -/
def issues (result : Result) : List Issue :=
  ((result.compilation.map ExternalReport.issues).getD []) ++
    ((result.ioMapping.map ExternalReport.issues).getD []) ++
    ((result.usage.map Usage.Analysis.issues).getD []) ++
    ((result.dependencies.map Dependencies.issues).getD [])

end Result

end PlcAudit.Project
