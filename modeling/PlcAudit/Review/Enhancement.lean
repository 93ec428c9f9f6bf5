import PlcAudit.Confidence.Basic
import PlcAudit.Data.Table
import PlcAudit.Review.Suppression

/-!
Issues with confidence, suppression and developer feedback. The issue itself is never changed; a
changed severity is a piece of feedback on it.
-/

namespace PlcAudit.Review

open Confidence

inductive FeedbackAction where
  | accept | reject | ignore | modifySeverity
  deriving DecidableEq, Inhabited, Repr

namespace FeedbackAction

def all : List FeedbackAction := [.accept, .reject, .ignore, .modifySeverity]

def name : FeedbackAction → String
  | .accept => "Accept"
  | .reject => "Reject"
  | .ignore => "Ignore"
  | .modifySeverity => "ModifySeverity"

/-- The developer does not want to see the issue again. -/
def dismisses : FeedbackAction → Bool
  | .reject | .ignore => true
  | _ => false

end FeedbackAction

/-- What a developer or the configuration has to say about an issue. -/
structure Feedback where
  action : FeedbackAction
  comment : Option String := none
  severity : Option Severity := none
  author : Option String := none
  deriving DecidableEq, Inhabited, Repr

/-- How deep the analysis behind an issue went. -/
inductive AnalysisLevel where
  | pattern | ast
  deriving DecidableEq, Inhabited, Repr

def AnalysisLevel.name : AnalysisLevel → String
  | .pattern => "Pattern"
  | .ast => "Ast"

structure Enhanced where
  issue : Issue
  id : String
  confidence : Level := .medium
  score : Nat := 50
  reasons : List String := []
  analysisLevel : AnalysisLevel := .pattern
  suppression : Option Suppression := none
  related : List String := []
  feedback : Option Feedback := none
  riskScore : Nat := 0
  deriving DecidableEq, Inhabited, Repr

namespace Enhanced

/-- The severity after feedback. -/
def effectiveSeverity (enhanced : Enhanced) : Severity :=
  (enhanced.feedback.bind (·.severity)).getD enhanced.issue.severity

/-- Weight of a severity scaled by confidence, at most 100. -/
def risk (severity : Severity) (score : Nat) : Nat :=
  min 100 (severity.weight * score / 10)

private def rescored (enhanced : Enhanced) : Enhanced :=
  { enhanced with riskScore := risk enhanced.effectiveSeverity enhanced.score }

def ofIssue (issue : Issue) : Enhanced :=
  rescored { issue, id := issue.stableId }

def withConfidence (enhanced : Enhanced) (result : Result) : Enhanced :=
  rescored { enhanced with
    confidence := result.level, score := result.score, reasons := result.reasons }

def isSuppressed (enhanced : Enhanced) : Bool := enhanced.suppression.isSome

def suppress (enhanced : Enhanced) (reason : String) (source : SuppressionSource) : Enhanced :=
  { enhanced with suppression := some ⟨reason, source⟩ }

/-- Takes feedback in. A dismissal also suppresses the issue. -/
def withFeedback (enhanced : Enhanced) (feedback : Feedback) : Enhanced :=
  let enhanced :=
    if feedback.action.dismisses then
      enhanced.suppress
        (feedback.comment.getD s!"{feedback.action.name} by developer feedback") .feedback
    else enhanced
  rescored { enhanced with feedback := some feedback }

def summary (enhanced : Enhanced) : String :=
  let head := s!"[{enhanced.effectiveSeverity.name}] {enhanced.issue.ruleId} " ++
    s!"{enhanced.issue.title} ({enhanced.issue.location}) " ++
    s!"confidence {enhanced.confidence.name} ({enhanced.score})"
  match enhanced.suppression with
  | some suppression => head ++ s!" suppressed[{suppression.source.word}]: {suppression.reason}"
  | none => head

end Enhanced

/-- How issues are enhanced. -/
structure Enhancer where
  similarity : Similarity := .ruleAndCategory
  disabledRules : List String := []

namespace Enhancer

/-- The evidence for an issue before the batch and the file are looked at. -/
def signals (issue : Issue) : Signals :=
  let preset := presetSignals (ruleKind issue.ruleId) issue
  match issue.ruleId with
  | "QA013" | "QA021" => { preset with globalVariable := true }
  | "QA014" => { preset with ioVariable := true }
  | _ => preset

/-- The last tree of a file. -/
def treeOf? (trees : List Code.Tree) (file : String) : Option Code.Tree :=
  trees.reverse.find? fun tree => tree.file == file

/-- The markers that count for an issue: those of its file if its text is known. -/
def suppressionsFor (enhancer : Enhancer) (sources : List (String × String)) (file : String) :
    Suppressions :=
  let marks := (sources.find? fun source => source.1 == file).map fun source =>
    Suppressions.ofSource source.2
  (marks.getD {}).withDisabled enhancer.disabledRules

def enhanceOne (enhancer : Enhancer) (sources : List (String × String))
    (trees : List Code.Tree) (issue : Issue) (similar : Nat) : Enhanced :=
  let counted := { signals issue with similarOccurrences := similar }
  let evidence := ((treeOf? trees issue.file).map counted.withTree).getD counted
  let scored := (Enhanced.ofIssue issue).withConfidence (evaluate evidence (some issue))
  { scored with
    analysisLevel := .ast
    suppression := (enhancer.suppressionsFor sources issue.file).check issue.ruleId issue.line }

/-- Two issues belong together when one rule found them in one file. -/
def sameGroup (left right : Enhanced) : Bool :=
  left.issue.ruleId == right.issue.ruleId && left.issue.file == right.issue.file

/-- Links each issue to the others of its group. -/
def linked (batch : List Enhanced) : List Enhanced :=
  batch.map fun enhanced => { enhanced with
    related := ((batch.filter (sameGroup enhanced)).map (·.id)).filter (· != enhanced.id) }

/-- Scores every issue, looks for suppressions and links related issues. -/
def enhance (enhancer : Enhancer) (issues : List Issue) (sources : List (String × String))
    (trees : List Code.Tree) : List Enhanced :=
  linked ((issues.zip (enhancer.similarity.counts issues)).map fun (issue, similar) =>
    enhancer.enhanceOne sources trees issue similar)

end Enhancer

/-- Issues of at least a level of confidence. -/
def filterByConfidence (least : Level) (issues : List Enhanced) : List Enhanced :=
  issues.filter fun enhanced => least.rank ≤ enhanced.confidence.rank

def excludeSuppressed (issues : List Enhanced) : List Enhanced :=
  issues.filter fun enhanced => !enhanced.isSuppressed

/-- An override names no severity. -/
structure InvalidOverride where
  ruleId : String
  value : String
  deriving DecidableEq, Repr

def InvalidOverride.message (problem : InvalidOverride) : String :=
  s!"invalid severity override for {problem.ruleId}: {problem.value}"

/-- Severities by upper-cased rule, read from names; a later entry replaces an earlier one. -/
def readOverrides (overrides : Table String String) :
    Except InvalidOverride (Table String Severity) :=
  overrides.entries.foldlM (fun read (ruleId, value) =>
    match Severity.ofText? value with
    | some severity => .ok (read.insert (Text.upper ruleId) severity)
    | none => .error { ruleId, value }) .empty

/-- The feedback by which configuration changes a severity. -/
def overrideFeedback (issue : Issue) (severity : Severity) : Feedback where
  action := .modifySeverity
  comment := some s!"severity override {issue.severity.name} -> {severity.name}"
  severity := some severity
  author := some "config"

/-- The override that changes an issue, if there is one. -/
def overrideFor? (overrides : Table String Severity) (enhanced : Enhanced) : Option Severity :=
  (overrides.find? (Text.upper enhanced.issue.ruleId)).filter (· != enhanced.effectiveSeverity)

/-- Changes the severity of the issues that an override names, and counts them. -/
def overrideAll (overrides : Table String Severity) : List Enhanced → List Enhanced × Nat
  | [] => ([], 0)
  | enhanced :: rest =>
    let (changed, applied) := overrideAll overrides rest
    match overrideFor? overrides enhanced with
    | some severity =>
      (enhanced.withFeedback (overrideFeedback enhanced.issue severity) :: changed, applied + 1)
    | none => (enhanced :: changed, applied)

/-- Reads all overrides, then applies them. The number of issues that were changed is the answer; if
some override cannot be read, no issue is touched. -/
def applyOverrides (overrides : Table String String) (issues : List Enhanced) :
    List Enhanced × Except InvalidOverride Nat :=
  match readOverrides overrides with
  | .error problem => (issues, .error problem)
  | .ok read =>
    let (changed, applied) := overrideAll read issues
    (changed, .ok applied)

end PlcAudit.Review
