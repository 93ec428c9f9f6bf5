import PlcAudit.Issue.Basic
import PlcAudit.Review.Change

/-!
What a run of the review rules reports.
-/

namespace PlcAudit.Review

/-- What to do with a check that fails. -/
inductive FailurePolicy where
  | skipAndContinue | abort
  deriving DecidableEq, Inhabited, Repr

namespace FailurePolicy

def all : List FailurePolicy := [.skipAndContinue, .abort]

def name : FailurePolicy → String
  | .skipAndContinue => "SkipAndContinue"
  | .abort => "Abort"

end FailurePolicy

/-- A check that failed and was skipped. -/
structure CheckFailure where
  ruleId : String
  subject : Subject
  message : String
  deriving DecidableEq, Inhabited, Repr

def CheckFailure.text (failure : CheckFailure) : String :=
  s!"rule {failure.ruleId} failed while checking a {failure.subject.name} change: {failure.message}"

/-- A run that ended at the first check that failed. -/
structure RunAborted where
  ruleId : String
  message : String
  deriving DecidableEq, Inhabited, Repr

def RunAborted.text (aborted : RunAborted) : String :=
  s!"rule run aborted after {aborted.ruleId} failed: {aborted.message}"

structure RunReport where
  issues : List Issue := []
  failures : List CheckFailure := []
  rulesRun : Nat := 0
  changesExamined : Nat := 0
  elapsedMs : Nat := 0
  /-- The run was stopped; the issues are those of the rules that had finished. -/
  cancelled : Bool := false
  deriving DecidableEq, Inhabited, Repr

end PlcAudit.Review
