import PlcAudit.Review.Rule.Structure
import PlcAudit.Text.Digest

/-!
Rules about the extent of code: its length, its parameters, its comments, its indentation, and
blocks of lines that occur twice.
-/

namespace PlcAudit.Review

open Code

/-- Code with too many lines. -/
def longFunction (limit criticalLimit : Nat) : Rule where
  id := "QA008"
  name := "Long function"
  description := "Detects POU bodies that exceed the line limit"
  severity := .warning
  onLogic change :=
    let count := change.lastLine - change.firstLine + 1
    if !change.edit.addsCode || count ≤ limit then []
    else [{
      category := Category.maintainability
      title := "Function is too long"
      line := change.firstLine
      severity := some (if criticalLimit < count then .critical else .warning)
      description := s!"{change.name} spans {count} lines (limit {limit})"
      whyDangerous :=
        "Long bodies mix responsibilities and are hard to test and review during commissioning."
      recommendation := "Split the body into smaller actions, methods or function blocks."
      newSnippet := s!"{count} lines total" }]

/-- Number of lines that are compared as one block. -/
def windowSize : Nat := 5

/-- The blocks of consecutive lines, by the index of their first line. -/
def windows (lines : List String) : List (List String) :=
  (List.range (lines.length + 1 - windowSize)).map fun start => (lines.drop start).take windowSize

/-- The digest by which blocks of lines are compared: eight bytes over the lines with their ends. -/
def blockDigest (lines : List String) : String :=
  Text.Digest.hex 8 (String.join (lines.map (· ++ "\n")))

/-- The first block that repeats an earlier one it does not overlap, with the first occurrence of
that block. Blocks are given by their digests. -/
def repetitionFrom (seen : List (String × Nat)) : List (String × Nat) → Option (Nat × Nat)
  | [] => none
  | (block, index) :: rest =>
    match seen.lookup block with
    | none => repetitionFrom ((block, index) :: seen) rest
    | some first =>
      if first + windowSize ≤ index then some (index, first) else repetitionFrom seen rest

/-- The first repeated block of lines and its first occurrence. Blocks overlap when a single line is
repeated; that is no repetition. -/
def repetition? (lines : List String) : Option (Nat × Nat) :=
  if lines.length < 2 * windowSize then none
  else repetitionFrom [] ((windows lines).map blockDigest).zipIdx

/-- The finding about lines of a change that repeat others. -/
def repetitionFinding (change : LogicChange) (offset : Nat) (earlier : String) : Finding :=
  { category := Category.maintainability
    title := "Duplicate code"
    line := change.firstLine + offset
    description := s!"{windowSize}+ lines of {change.name} repeat code at {earlier}"
    whyDangerous := "A fix applied to one copy is easily missed in the other."
    recommendation := "Extract the shared lines into a function, method or action." }

/-- The normalized lines of the new code of an addition. -/
def LogicChange.addedLines? (change : LogicChange) : Option (List String) :=
  if change.edit == .added then change.newCode.map normalizedLines else none

/-- The additions of a set that consist of the same lines as an earlier one, with the earliest of
these. -/
def repeatedBlocks (seen : List (String × LogicChange)) :
    List LogicChange → List (LogicChange × LogicChange)
  | [] => []
  | change :: rest =>
    match change.addedLines? with
    | none => repeatedBlocks seen rest
    | some lines =>
      if lines.length < windowSize then repeatedBlocks seen rest
      else match seen.lookup (blockDigest lines) with
        | some earlier => (change, earlier) :: repeatedBlocks seen rest
        | none => repeatedBlocks ((blockDigest lines, change) :: seen) rest

/-- Lines that occur twice in one addition, and additions that occur twice in the set. -/
def duplicateCode : Rule where
  id := "QA010"
  name := "Duplicate code"
  description := "Detects repeated blocks of five or more normalised lines"
  severity := .warning
  onLogic change :=
    match change.addedLines?.bind repetition? with
    | none => []
    | some (index, first) =>
      [repetitionFinding change index s!"{change.file}:{change.firstLine + first}"]
  onSet changes :=
    (repeatedBlocks [] changes.logic).map fun (change, earlier) =>
      (change.file, repetitionFinding change 0 s!"{earlier.file}:{earlier.firstLine}")

/-- Code with too few comments. -/
def fewComments (linesPerComment : Nat) : Rule where
  id := "QA016"
  name := "Insufficient comments"
  description := "Detects logic with fewer comments than one per configured number of lines"
  severity := .info
  onLogic change :=
    match change.codeToCheck? with
    | none => []
    | some code =>
      let share := max linesPerComment 1
      let total := ((Text.lines code).filter fun line => Text.trim line ≠ "").length
      let expected := (total + share - 1) / share
      let comments := commentLines code
      if total < share || expected ≤ comments then []
      else [{
        category := Category.maintainability
        title := "Insufficient comments"
        line := change.firstLine
        description := s!"{change.name}: {comments} comment(s) in {total} lines, " ++
          s!"expected at least {expected}"
        whyDangerous :=
          "Uncommented control logic is hard to verify against the process description."
        recommendation := s!"Explain intent and units at least once every {share} lines." }]

def inputBlockPattern : Pattern.Program :=
  Pattern.compile "(?i)^VAR_INPUT\\b"

def endBlockPattern : Pattern.Program :=
  Pattern.compile "(?i)^END_VAR\\b"

private def inputParametersFrom : Bool → List String → Nat
  | _, [] => 0
  | inside, line :: rest =>
    if inputBlockPattern.isMatch line then inputParametersFrom true rest
    else if endBlockPattern.isMatch line then inputParametersFrom false rest
    else
      (if inside && line.toList.contains ':' && Text.hasEnd line ";" then 1 else 0) +
        inputParametersFrom inside rest

/-- Number of declarations in the input blocks of a code. -/
def inputParameters (code : String) : Nat :=
  inputParametersFrom false (bareLines code)

/-- Code with too many inputs. -/
def manyParameters (threshold : Nat) : Rule where
  id := "QA018"
  name := "Too many parameters"
  description := "Detects POUs declaring many VAR_INPUT parameters"
  severity := .info
  onLogic change :=
    match change.codeToCheck? with
    | none => []
    | some code =>
      let count := inputParameters code
      if count < threshold then []
      else [{
        category := Category.maintainability
        title := "Too many parameters"
        line := change.firstLine
        description := s!"{change.name} declares {count} inputs (threshold {threshold})"
        whyDangerous := "Long parameter lists invite argument mix-ups at call sites."
        recommendation := "Group related inputs into a struct." }]

/-- Code indented with tabs on some lines and with spaces on others. -/
def mixedIndentation : Rule where
  id := "QA020"
  name := "Inconsistent indentation"
  description := "Detects code indented with a mix of tabs and spaces"
  severity := .info
  onLogic change :=
    let lines := Text.lines (change.codeToCheck?.getD "")
    let tabs := (lines.filter fun line => Text.hasStart line "\t").length
    let spaces := (lines.filter fun line => Text.hasStart line "    ").length
    if tabs == 0 || spaces == 0 then []
    else [{
      category := Category.style
      title := "Mixed tab and space indentation"
      line := change.firstLine
      description :=
        s!"{change.name}: {tabs} tab-indented and {spaces} space-indented lines"
      whyDangerous := "Mixed indentation renders differently between editors and hides the real " ++
        "block structure."
      recommendation :=
        if spaces ≤ tabs then "Indent with tabs only." else "Indent with four spaces only." }]

end PlcAudit.Review
