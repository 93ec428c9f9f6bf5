import PlcAudit.Review.Rule.Basic
import PlcAudit.Text.Capital
import PlcAudit.Text.Pattern.Matcher

/-!
Rules about names: the marks of scopes and types at their beginning, and their length.
-/

namespace PlcAudit.Review

open Code

def questionPattern : Pattern.Program :=
  Pattern.compile "(?i)^(is|has|can|should)"

/-- Greatest length of a name that follows the convention. -/
def conventionalLength : Nat := 50

def isBoolType (type : String) : Bool :=
  Text.sameName (Text.trim type) "BOOL"

/-- What is wrong with the beginning of a name in its scope. -/
def scopeViolation? (name : String) : Scope → Option String
  | .global =>
    if Text.hasStart name "g" || Text.hasStart name "G" then none
    else some "global variables start with 'g'"
  | .input => if Text.hasStart name "i" then none else some "inputs start with 'i' or 'in'"
  | .output => if Text.hasStart name "o" then none else some "outputs start with 'o' or 'out'"
  | _ => none

/-- What is wrong with the name of a variable. -/
def nameViolations (name : String) (scope : Scope) (type : String) : List String :=
  (scopeViolation? name scope).toList ++
  (if scope == .local_ && isBoolType type && !questionPattern.isMatch name then
    ["BOOL locals start with is/has/can/should"] else []) ++
  (if name.length == 1 && !(["i", "j", "k"].contains (Text.lower name)) then
    ["single-letter names are reserved for loop counters i, j, k"] else []) ++
  (if conventionalLength < name.length then
    [s!"names are at most {conventionalLength} characters"] else [])

/-- A better name for a variable. -/
def suggestedName (name : String) (scope : Scope) (type : String) : String :=
  match scope with
  | .global => "g" ++ Text.capitalised name
  | .input => "i" ++ Text.capitalised name
  | .output => "o" ++ Text.capitalised name
  | _ => if isBoolType type then "is" ++ Text.capitalised name else name

/-- What is wrong with the name of a data type. -/
def typeNameViolation? (name : String) : TypeKind → Option String
  | .struct =>
    if Text.hasStart name "ST_" || Text.hasStart name "T_" then none
    else some "structs start with ST_"
  | .enum => if Text.hasStart name "E_" then none else some "enums start with E_"
  | _ => none

/-- Names without the mark of their scope or kind of type. -/
def namingConvention : Rule where
  id := "QA012"
  name := "Naming convention"
  description := "Checks scope prefixes and data type prefixes"
  severity := .warning
  onVariable change :=
    let type := change.newType.getD ""
    let violations := nameViolations change.name change.scope type
    if !change.edit.addsCode || violations.isEmpty then []
    else
      let listed := Text.joined "; " violations
      let suggestion := suggestedName change.name change.scope type
      [{
        category := Category.naming
        title := "Naming convention violated"
        line := change.line
        description := s!"{change.name} ({change.scope.keyword}): {listed}"
        whyDangerous :=
          "Without scope prefixes a reader cannot tell shared state from locals at the point " ++
            "of use."
        recommendation := s!"Rename to {suggestion}" }]
  onType change :=
    match change.edit, typeNameViolation? change.name change.kind with
    | .added, some violation =>
      let mark := if change.kind == .enum then "E_" else "ST_"
      [{
        category := Category.naming
        title := "Data type naming convention violated"
        line := change.line
        description := s!"{change.name}: {violation}"
        whyDangerous :=
          "Type prefixes make user types recognisable in declarations and online views."
        recommendation := s!"Rename to {mark}{change.name}" }]
    | _, _ => []

/-- The finding about a name that reaches the limit. -/
def longNameFinding (limit : Nat) (what name : String) (line : Nat) : Finding :=
  { category := Category.style
    title := s!"Excessively long {what} name"
    line
    description := s!"{name} is {name.length} characters long (limit {limit})"
    whyDangerous :=
      "Very long identifiers are truncated in online views and make expressions hard to read."
    recommendation := "Shorten the name and use common abbreviations." }

/-- Names that reach the limit of length. -/
def longName (limit : Nat) : Rule where
  id := "QA019"
  name := "Excessively long name"
  description := "Detects identifiers at or above the configured length"
  severity := .info
  onVariable change :=
    if !change.edit.addsCode || change.name.length < limit then []
    else [longNameFinding limit "variable" change.name change.line]
  onType change :=
    if !change.edit.addsCode then []
    else
      (if change.name.length < limit then []
        else [longNameFinding limit "type" change.name change.line]) ++
      (change.fields.filter fun field => field.edit.addsCode && limit ≤ field.name.length).map
        fun field => longNameFinding limit "field" field.name change.line

end PlcAudit.Review
