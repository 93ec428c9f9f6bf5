import PlcAudit.Code.Comment
import PlcAudit.Code.TypeText
import PlcAudit.Review.Rule.Basic
import PlcAudit.Text.Pattern.Matcher

/-!
Rules about values: exact comparison of floating point numbers, and numbers without a name.
-/

namespace PlcAudit.Review

open Code

def comparisonPattern : Pattern.Program :=
  Pattern.compile "(\\w[\\w\\.]*)\\s*(=|<>)\\s*([\\w\\.\\-\\+]+)"

def tolerancePattern : Pattern.Program :=
  Pattern.compile "(?i)ABS\\s*\\(\\s*(\\w+)\\s*-\\s*(\\w+)\\s*\\)\\s*<\\s*[\\d\\.]+"

def conditionPattern : Pattern.Program :=
  Pattern.compile "(?i)\\b(IF|ELSIF|WHILE|UNTIL)\\b"

def scientificPattern : Pattern.Program :=
  Pattern.compile "^-?\\d+(\\.\\d+)?[eE][+-]?\\d+$"

/-- Pieces of names that suggest a floating point quantity. -/
def floatHints : List String :=
  ["temp", "speed", "position", "voltage", "current", "pressure", "flow", "rate", "ratio",
    "factor", "real", "float", "double"]

/-- An operand that is written or named like a floating point value. -/
def looksLikeFloat (operand : String) : Bool :=
  let chars := operand.toList
  (chars.contains '.' && chars.head?.any fun first => first.isDigit || first == '-') ||
    scientificPattern.isMatch operand ||
    floatHints.any (Text.contains (Text.lower operand))

/-- Floating point values compared for equality. -/
def exactComparison : Rule where
  id := "QA005"
  name := "Floating point equality"
  description := "Detects REAL/LREAL values compared with = or <> instead of an epsilon test"
  severity := .critical
  onLogic change :=
    let code := change.codeToCheck?.getD ""
    let chars := code.toList
    if !conditionPattern.isMatch code || tolerancePattern.isMatch code then []
    else (comparisonPattern.findAll chars).filterMap fun found => do
      let left ← found.group? chars 1
      let operator ← found.group? chars 2
      let right ← found.group? chars 3
      if looksLikeFloat left || looksLikeFloat right then
        return {
          category := Category.floatingPoint
          title := "Direct floating point comparison"
          line := change.lineAt found.start
          description := s!"{left} {operator} {right}: REAL/LREAL values are compared exactly"
          whyDangerous := "Rounding error makes exact equality between computed floats " ++
            "unreliable, so the branch may never or always be taken."
          recommendation := s!"Compare with a tolerance: IF ABS({left} - {right}) < 1.0E-6 THEN"
          examples := [
            s!"// risky: IF {left} = {right} THEN",
            s!"// safe:  IF ABS({left} - {right}) < EPSILON THEN"]
          newSnippet := quoted (found.text chars) 80 }
      else none
  onType change :=
    (change.fields.filter fun field =>
      field.edit.addsCode && field.newType.any TypeText.isReal &&
        !field.oldType.any TypeText.isReal).map fun field =>
          let type := field.newType.getD ""
          { category := Category.typeSafety
            title := "Field changed to floating point type"
            line := change.line
            severity := some .warning
            description := s!"{change.name}.{field.name} is now {type}"
            whyDangerous := "Existing equality comparisons on this field become unreliable."
            recommendation :=
              "Review every comparison on the field and switch to tolerance-based tests."
            oldSnippet := field.oldType.getD ""
            newSnippet := type }

/-- Numbers that explain themselves. -/
def plainNumbers : List String :=
  ["0", "1", "-1", "2", "10", "100", "1000"]

def numberPattern : Pattern.Program :=
  Pattern.compile "^-?\\d+(\\.\\d+)?$"

def numberInCodePattern : Pattern.Program :=
  Pattern.compile "\\b(\\d+\\.\\d+|\\d+)\\b"

def isMagicNumber (text : String) : Bool :=
  let value := Text.trim text
  numberPattern.isMatch value && !plainNumbers.contains value

/-- The unexplained numbers of one line; one beside a number sign belongs to a typed literal. -/
def magicNumbersOfLine (line : List Char) : List String :=
  (numberInCodePattern.findAll line).filterMap fun found =>
    let text := found.text line
    let typed := (line.take found.start).getLast? == some '#' ||
      (line.drop found.stop).head? == some '#'
    if !typed && isMagicNumber text then some text else none

/-- The unexplained numbers of a code outside comments, each once, in order of appearance. -/
def magicNumbers (code : String) : List String :=
  ((uncommentedLines code).flatMap fun line => magicNumbersOfLine line.toList).eraseDups

/-- Numbers that should be named constants. -/
def magicNumber : Rule where
  id := "QA007"
  name := "Magic number"
  description := "Detects numeric literals that should be named constants"
  severity := .warning
  onVariable change :=
    match change.newInitial with
    | some initial =>
      let value := Text.trim initial
      if change.edit.addsCode && isMagicNumber value then [{
        category := Category.codeQuality
        title := "Magic number in initial value"
        line := change.line
        description := s!"{change.name} is initialised with the bare literal {value}"
        whyDangerous := "A bare number hides its unit and intent, and the same value copied " ++
          "elsewhere drifts apart."
        recommendation := "Move the value into a VAR CONSTANT block with a descriptive name."
        examples := [
          "VAR CONSTANT",
          s!"    MAX_{Text.upper change.name} : INT := {value};",
          "END_VAR"] }]
      else []
    | none => []
  onLogic change :=
    let code := change.codeToCheck?.getD ""
    let numbers := magicNumbers code
    if numbers.isEmpty then []
    else
      let listed := Text.joined ", " numbers
      [{
        category := Category.codeQuality
        title := "Magic number in logic"
        line := change.firstLine
        description := s!"{change.name} uses unnamed literals: {listed}"
        whyDangerous := "Unnamed literals make tuning error-prone and obscure the engineering " ++
          "meaning of a value."
        recommendation := "Replace each literal with a named constant."
        newSnippet := quoted code 200 }]

end PlcAudit.Review
