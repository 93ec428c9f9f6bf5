import PlcAudit.Text.Digest
import PlcAudit.Text.Line

/-!
Findings. An issue names the rule that found it and the place it is about; issues are listed by
severity, file, line and rule.
-/

namespace PlcAudit

inductive Severity where
  | info | warning | critical
  deriving DecidableEq, Inhabited, Repr

namespace Severity

def all : List Severity := [.info, .warning, .critical]

def name : Severity → String
  | .info => "Info"
  | .warning => "Warning"
  | .critical => "Critical"

def rank : Severity → Nat
  | .info => 0
  | .warning => 1
  | .critical => 2

/-- Penalty in scores. -/
def weight : Severity → Nat
  | .info => 2
  | .warning => 5
  | .critical => 10

/-- Reads a severity name in any letter case. -/
def ofText? (text : String) : Option Severity :=
  match Text.lower (Text.trim text) with
  | "info" => some .info
  | "warning" | "warn" => some .warning
  | "critical" | "error" => some .critical
  | _ => none

end Severity

/-- A finding of a rule. -/
structure Issue where
  ruleId : String
  severity : Severity
  category : String
  title : String
  file : String := ""
  line : Nat := 0
  location : String := ""
  description : String := ""
  whyDangerous : String := ""
  recommendation : String := ""
  examples : List String := []
  oldSnippet : String := ""
  newSnippet : String := ""
  deriving DecidableEq, Inhabited, Repr

namespace Issue

/-- The issue at a place. -/
def placed (issue : Issue) (file : String) (line : Nat) : Issue :=
  { issue with file, line, location := s!"{file}:{line}" }

/-- A short name that depends only on rule, file, line and title. -/
def stableId (issue : Issue) : String :=
  Text.Digest.hex 6 s!"{issue.ruleId}|{issue.file}|{issue.line}|{issue.title}"

/-- The order of reports: the more severe first, then file, line and rule. -/
def order (left right : Issue) : Ordering :=
  (compare right.severity.rank left.severity.rank).then
    ((compare left.file right.file).then
      ((compare left.line right.line).then (compare left.ruleId right.ruleId)))

/-- Sorts into report order; issues that agree in it keep their order. -/
def sorted (issues : List Issue) : List Issue :=
  issues.mergeSort fun left right => (order left right).isLE

/-- What makes two findings repetitions of each other. -/
def place (issue : Issue) : String × Nat × String :=
  (issue.file, issue.line, issue.ruleId)

/-- The first issue at each place that has not been seen. -/
def firstPlaces (seen : List (String × Nat × String)) : List Issue → List Issue
  | [] => []
  | issue :: rest =>
    if seen.contains issue.place then firstPlaces seen rest
    else issue :: firstPlaces (issue.place :: seen) rest

/-- Of the findings with one file, line and rule, the first. -/
def deduplicated (issues : List Issue) : List Issue :=
  firstPlaces [] issues

end Issue

end PlcAudit
