import PlcAudit.Issue.Basic
import PlcAudit.Review.Change

/-!
Review rules. A rule looks at one change at a time, and once at the whole set; what it finds lies
in the file of the change, so that its issues can be placed without asking the rule.
-/

namespace PlcAudit.Review

/-- What a rule found, without the file it was found in. -/
structure Finding where
  category : String
  title : String
  line : Nat
  /-- Where it differs from the severity of the rule. -/
  severity : Option Severity := none
  description : String
  whyDangerous : String
  recommendation : String
  examples : List String := []
  oldSnippet : String := ""
  newSnippet : String := ""
  deriving DecidableEq, Inhabited, Repr

structure Rule where
  id : String
  name : String
  description : String
  severity : Severity
  onVariable : VariableChange → List Finding := fun _ => []
  onLogic : LogicChange → List Finding := fun _ => []
  onType : TypeChange → List Finding := fun _ => []
  /-- Findings about the set as a whole, with the file of each. -/
  onSet : ChangeSet → List (String × Finding) := fun _ => []

namespace Rule

/-- The issue for a finding in a file. -/
def issue (rule : Rule) (file : String) (finding : Finding) : Issue :=
  { ruleId := rule.id
    severity := finding.severity.getD rule.severity
    category := finding.category
    title := finding.title
    description := finding.description
    whyDangerous := finding.whyDangerous
    recommendation := finding.recommendation
    examples := finding.examples
    oldSnippet := finding.oldSnippet
    newSnippet := finding.newSnippet : Issue }.placed file finding.line

def variableIssues (rule : Rule) (change : VariableChange) : List Issue :=
  (rule.onVariable change).map (rule.issue change.file)

def logicIssues (rule : Rule) (change : LogicChange) : List Issue :=
  (rule.onLogic change).map (rule.issue change.file)

def typeIssues (rule : Rule) (change : TypeChange) : List Issue :=
  (rule.onType change).map (rule.issue change.file)

def setIssues (rule : Rule) (changes : ChangeSet) : List Issue :=
  (rule.onSet changes).map fun (file, finding) => rule.issue file finding

end Rule

namespace Category

def typeSafety := "Type Safety"
def initialization := "Initialization"
def memorySafety := "Memory Safety"
def floatingPoint := "Floating Point"
def safety := "Safety"
def codeQuality := "Code Quality"
def maintainability := "Maintainability"
def complexity := "Complexity"
def naming := "Naming"
def architecture := "Architecture"
def style := "Code Style"

end Category

/-- The code that a finding quotes: without outer blanks and cut to a length. -/
def quoted (code : String) (limit : Nat) : String :=
  Text.truncated (Text.trim code) limit

end PlcAudit.Review
