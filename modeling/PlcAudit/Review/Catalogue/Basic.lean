import PlcAudit.Review.Rule.Basic
import PlcAudit.Text.Pattern.Matcher

/-!
Rules that consist of a search pattern: every place in a change that the pattern matches is a
finding.
-/

namespace PlcAudit.Review

/-- What a row of the catalogue is about. -/
inductive Area where
  | unusedCode | conversions | operations | variablesAndConstants | declarations | initialization
  | concurrency | objects | names | metrics | comments | standard | memoryLayout | safety
  | miscellaneous
  deriving DecidableEq, Inhabited, Repr

def Area.title : Area → String
  | .unusedCode => "Unreachable/Unused Code"
  | .conversions => "Conversions"
  | .operations => "Operations"
  | .variablesAndConstants => "Variables and Constants"
  | .declarations => "Declarations"
  | .initialization => "Initialization"
  | .concurrency => "Concurrency"
  | .objects => "Object Oriented"
  | .names => "Naming Conventions"
  | .metrics => "Metrics"
  | .comments => "Comments"
  | .standard => "Strict IEC"
  | .memoryLayout => "Memory Layout"
  | .safety => "Safety"
  | .miscellaneous => "Miscellaneous"

/-- Where a row searches: in new code, in the written form of a new declaration, or in the new
definition of a data type. -/
inductive SearchTarget where
  | logic | variable | dataType
  deriving DecidableEq, Inhabited, Repr

def SearchTarget.name : SearchTarget → String
  | .logic => "Logic"
  | .variable => "Variable"
  | .dataType => "DataType"

structure Row where
  id : String
  name : String
  severity : Severity
  area : Area
  target : SearchTarget
  pattern : String
  title : String
  recommendation : String
  /-- The row belongs to the rules that run unless told otherwise. -/
  isDefault : Bool := true
  deriving DecidableEq, Inhabited, Repr

/-- A declaration as it is written. -/
def VariableChange.declaration (change : VariableChange) : String :=
  s!"{change.name} : {change.newType.getD default}" ++
    match change.newInitial with
    | some initial => s!" := {initial}"
    | none => ""

/-- Of places with lines, the first on each line. -/
def firstOnLine {α : Type} (seen : List Nat) : List (Nat × α) → List (Nat × α)
  | [] => []
  | (line, place) :: rest =>
    if seen.contains line then firstOnLine seen rest
    else (line, place) :: firstOnLine (line :: seen) rest

namespace Row

def finding (row : Row) (line : Nat) (found : String) : Finding :=
  let text := Text.trim found
  { category := row.area.title
    title := row.title
    line
    description := s!"{row.name}: '{Text.truncated text 80}'"
    whyDangerous := s!"{row.name} ({row.area.title})"
    recommendation := row.recommendation
    newSnippet := text }

/-- The row as a rule. Of several matches in code on one line the first counts; in a declaration
only the first match counts, and in a data type all do. -/
def rule (row : Row) : Rule :=
  let program := Pattern.compile row.pattern
  { id := row.id
    name := row.name
    description := row.title
    severity := row.severity
    onVariable := fun change =>
      if row.target != .variable || !change.edit.addsCode then []
      else
        let text := change.declaration.toList
        ((program.findFrom? text 0).map fun found =>
          row.finding change.line (found.text text)).toList
    onLogic := fun change =>
      match row.target, change.codeToCheck? with
      | .logic, some code =>
        let text := code.toList
        let places := (program.findAll text).map fun found =>
          (change.lineAt found.start, found.text text)
        (firstOnLine [] places).map fun (line, found) => row.finding line found
      | _, _ => []
    onType := fun change =>
      match row.target, change.edit.addsCode, change.newDefinition with
      | .dataType, true, some definition =>
        let text := definition.toList
        (program.findAll text).map fun found =>
          row.finding (change.line + Text.lineFeeds text found.start) (found.text text)
      | _, _, _ => [] }

end Row

end PlcAudit.Review
