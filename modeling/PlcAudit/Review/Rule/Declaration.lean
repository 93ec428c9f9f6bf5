import PlcAudit.Code.TypeText
import PlcAudit.Data.Table
import PlcAudit.Review.Rule.Basic
import PlcAudit.Text.Pattern.Matcher

/-!
Rules about declared variables: narrowed types, missing initial values, placeholder names, and
global variables.
-/

namespace PlcAudit.Review

open Code

/-- A variable whose new type stores fewer bits than its old one. -/
def narrowedType : Rule where
  id := "QA001"
  name := "Type narrowing"
  description := "Detects data type changes that shrink the storage width of a variable"
  severity := .critical
  onVariable change :=
    match change.edit, change.oldType, change.newType with
    | .modified, some old, some new =>
      match TypeText.bits? old, TypeText.bits? new with
      | some oldBits, some newBits =>
        let (oldBase, newBase) := (TypeText.base old, TypeText.base new)
        if newBits < oldBits then [{
          category := Category.typeSafety
          title := "Type narrowing may lose data"
          line := change.line
          description :=
            s!"{change.name}: {oldBase} ({oldBits} bit) changed to {newBase} ({newBits} bit)"
          whyDangerous := "Values outside the range of the narrower type are truncated or wrap " ++
            "around silently. Existing assignments from wider expressions keep compiling and " ++
            "corrupt data at runtime."
          recommendation := s!"Keep {oldBase} or convert explicitly with a range check before " ++
            "assigning to the narrower type."
          examples := [
            s!"// before: {change.name} : {oldBase};",
            s!"// after:  {change.name} : {newBase};",
            "IF value <= 32767 AND value >= -32768 THEN counter := DINT_TO_INT(value); END_IF"]
          oldSnippet := old
          newSnippet := new }]
        else []
      | _, _ => []
    | _, _, _ => []

/-- First words of the types whose variables need an initial value. -/
def setBeforeUse : List String :=
  ["BOOL", "INT", "DINT", "LINT", "UINT", "UDINT", "ULINT", "REAL", "LREAL", "BYTE", "WORD",
    "DWORD", "LWORD", "POINTER", "REFERENCE"]

def needsInitialValue (type : String) : Bool :=
  setBeforeUse.contains ((Text.words (TypeText.base type)).headD "")

/-- A new variable without an initial value. -/
def missingInitialValue : Rule where
  id := "QA002"
  name := "Uninitialized variable"
  description := "Detects new variables declared without an explicit initial value"
  severity := .critical
  onVariable change :=
    match change.edit, change.newInitial, change.newType with
    | .added, none, some type =>
      if needsInitialValue type then [{
        category := Category.initialization
        title := "Variable is not initialized"
        line := change.line
        description := s!"{change.name} : {type} has no initial value"
        whyDangerous := "After a warm restart or an online change the variable may hold a stale " ++
          "value, and pointers or references may point at released memory."
        recommendation :=
          s!"Declare an explicit initial value: {change.name} : {type} := <value>;"
        examples := [
          s!"// risky: {change.name} : {type};",
          s!"// safe:  {change.name} : {type} := 0;"]
        newSnippet := s!"{change.name} : {type};" }]
      else []
    | _, _, _ => []

def placeholderPattern : Pattern.Program :=
  Pattern.compile "(?i)^(temp|tmp|test|dummy)\\d*$|^var\\d+$|^(x|y|z|foo|bar|baz)$"

/-- A new variable named like something left over. -/
def placeholderName : Rule where
  id := "QA006"
  name := "Possibly unused variable"
  description := "Flags newly added variables with placeholder names that are often left unused"
  severity := .warning
  onVariable change :=
    if change.edit == .added && placeholderPattern.isMatch change.name then [{
      category := Category.codeQuality
      title := "Variable may be unused"
      line := change.line
      description := s!"'{change.name}' looks like a temporary or test variable"
      whyDangerous := "Leftover scratch variables waste memory and hide which values the logic " ++
        "actually depends on."
      recommendation := "Remove the variable if it is not read, or give it a name that states " ++
        "its purpose."
      examples := ["// avoid: temp1, dummy, x", "// prefer: calculatedSpeed, retryCounter"] }]
    else []

/-- The new global variables of a set by file, each file's in the order of the set. -/
def addedGlobals (changes : ChangeSet) : Table String (List VariableChange) :=
  (changes.declarations.filter fun change => change.edit == .added && change.scope == .global).foldl
    (fun byFile change => byFile.alter change.file fun added => added.getD [] ++ [change])
    .empty

/-- Too many new global variables in one file. -/
def globalOveruse (warningCount maxCount : Nat) : Rule where
  id := "QA013"
  name := "Global variable overuse"
  description := "Counts global variables added per file and warns past the threshold"
  severity := .warning
  onSet changes :=
    (addedGlobals changes).entries.filterMap fun (file, added) =>
      let count := added.length
      if count < warningCount then none
      else some (file, {
        category := Category.architecture
        title := "Too many global variables"
        line := (added[warningCount - 1]?.map VariableChange.line).getD 0
        severity := some (if maxCount ≤ count then .critical else .warning)
        description := s!"{count} global variables added to {file} " ++
          s!"(warning at {warningCount}, limit {maxCount})"
        whyDangerous := "Globals couple every POU to shared state and make write conflicts " ++
          "between tasks likely."
        recommendation := "Group related values in a struct or pass them as function block " ++
          "inputs and outputs." })

/-- Global variables that disappear, and new ones that do not show that they are global. -/
def globalLifetime : Rule where
  id := "QA021"
  name := "Unused global variable"
  description :=
    "Flags removed globals that may leave dangling references and unprefixed new globals"
  severity := .warning
  onVariable change :=
    let name := change.name
    match change.scope, change.edit with
    | .global, .removed => [{
        category := Category.architecture
        title := "Global variable removed"
        line := change.line
        description := s!"Global '{name}' was removed; remaining references will fail to resolve"
        whyDangerous := "Other POUs or HMI symbols that still read the global break at build " ++
          "time or, through symbol access, at runtime."
        recommendation := s!"Search the project and HMI for '{name}' before removing it."
        oldSnippet := name }]
    | .global, .added =>
      if Text.hasStart name "g" || Text.hasStart name "G" then []
      else [{
        category := Category.naming
        title := "Global variable without g prefix"
        line := change.line
        description := s!"Global '{name}' does not follow the g-prefix convention"
        whyDangerous := "Unprefixed globals are mistaken for locals, which hides shared state " ++
          "and unused declarations."
        recommendation := s!"Rename to g{name} or move it into the POU that uses it."
        newSnippet := name }]
    | _, _ => []

end PlcAudit.Review
