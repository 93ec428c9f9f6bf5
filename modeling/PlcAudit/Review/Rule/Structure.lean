import PlcAudit.Code.Comment
import PlcAudit.Review.Rule.Basic
import PlcAudit.Text.Pattern.Matcher

/-!
Rules about the control structure of code, read off line by line: nesting, decisions, selections
without a default branch, and loops without a way out.
-/

namespace PlcAudit.Review

open Code

/-- The lines of a code without comments and outer blanks. -/
def bareLines (code : String) : List String :=
  (uncommentedLines code).map Text.trim

def openingPattern : Pattern.Program :=
  Pattern.compile "(?i)^(IF|FOR|WHILE|CASE|REPEAT)\\b"

def closingPattern : Pattern.Program :=
  Pattern.compile "(?i)^(END_IF|END_FOR|END_WHILE|END_CASE|UNTIL)\\b"

/-- How deep the structures are at a line, and the greatest depth so far with its line. -/
structure NestingState where
  depth : Nat := 0
  deepest : Nat := 0
  deepestLine : Nat := 0
  deriving DecidableEq

def NestingState.next (state : NestingState) (line : String) (index : Nat) : NestingState :=
  if closingPattern.isMatch line then { state with depth := state.depth - 1 }
  else if openingPattern.isMatch line then
    let depth := state.depth + 1
    if state.deepest < depth then { depth, deepest := depth, deepestLine := index }
    else { state with depth }
  else state

/-- The greatest depth of structures in a code, and the first line, counted from 0, that reaches
it. -/
def maxNesting (code : String) : Nat × Nat :=
  let last : NestingState :=
    (bareLines code).zipIdx.foldl (fun state (line, index) => state.next line index) {}
  (last.deepest, last.deepestLine)

/-- Structures nested deeper than the limit. -/
def deepNesting (limit : Nat) : Rule where
  id := "QA009"
  name := "Deep nesting"
  description := "Detects IF/FOR/WHILE/CASE/REPEAT nested beyond the configured depth"
  severity := .warning
  onLogic change :=
    let (depth, index) := maxNesting (change.codeToCheck?.getD "")
    if depth ≤ limit then []
    else [{
      category := Category.complexity
      title := "Nesting is too deep"
      line := change.firstLine + index
      description :=
        s!"{change.name} nests control structures {depth} levels deep (limit {limit})"
      whyDangerous := "Deeply nested branches are hard to reason about and hide unhandled " ++
        "combinations of conditions."
      recommendation :=
        "Use early EXIT/RETURN guards, CASE on a state variable, or extract inner blocks." }]

def caseHeadPattern : Pattern.Program :=
  Pattern.compile "(?i)^CASE\\s+\\w+\\s+OF"

def elsePattern : Pattern.Program :=
  Pattern.compile "(?i)^ELSE\\b"

def endCasePattern : Pattern.Program :=
  Pattern.compile "(?i)^END_CASE\\b"

def ifPattern : Pattern.Program :=
  Pattern.compile "(?i)\\bIF\\b"

/-- A selection that is open at a line: where it starts, whether its default branch was seen, and
how many conditionals are open in it. -/
structure OpenCase where
  start : Nat
  hasElse : Bool := false
  conditionals : Nat := 0
  deriving DecidableEq

/-- The selection after a line that neither starts nor ends one. -/
def OpenCase.next (current : OpenCase) (line : String) : OpenCase :=
  let upper := Text.upper line
  let opens := ifPattern.isMatch upper
  let closes := Text.contains upper "END_IF"
  if opens && !closes then { current with conditionals := current.conditionals + 1 }
  else if closes && !opens then { current with conditionals := current.conditionals - 1 }
  else if current.conditionals == 0 && elsePattern.isMatch line then
    { current with hasElse := true }
  else current

/-- The selections that end without a default branch, where some are open. -/
def casesWithoutElseFrom : List OpenCase → List (String × Nat) → List Nat
  | _, [] => []
  | stack, (line, index) :: rest =>
    if caseHeadPattern.isMatch line then casesWithoutElseFrom ({ start := index } :: stack) rest
    else if endCasePattern.isMatch line then
      match stack with
      | [] => casesWithoutElseFrom [] rest
      | current :: outer =>
        if current.hasElse then casesWithoutElseFrom outer rest
        else current.start :: casesWithoutElseFrom outer rest
    else match stack with
      | [] => casesWithoutElseFrom [] rest
      | current :: outer => casesWithoutElseFrom (current.next line :: outer) rest

/-- The first lines, counted from 0, of the selections that end without a default branch, in the
order of their ends. -/
def casesWithoutElse (code : String) : List Nat :=
  casesWithoutElseFrom [] (bareLines code).zipIdx

/-- Selections without a default branch. -/
def missingElse : Rule where
  id := "QA011"
  name := "Missing CASE ELSE"
  description := "Detects CASE statements that do not handle unexpected selector values"
  severity := .warning
  onLogic change :=
    (casesWithoutElse (change.codeToCheck?.getD "")).map fun start =>
      let line := change.firstLine + start
      { category := Category.safety
        title := "CASE statement without ELSE"
        line
        description := s!"CASE at line {line} has no ELSE branch"
        whyDangerous :=
          "An unexpected selector value falls through silently and the state machine stalls."
        recommendation := "Add an ELSE branch that logs the value and moves to a safe state."
        examples :=
          ["CASE state OF", "    0: ...", "ELSE", "    state := STATE_ERROR;", "END_CASE"] }

inductive LoopKind where
  | whileLoop | repeatLoop
  deriving DecidableEq, Inhabited, Repr

namespace LoopKind

def keyword : LoopKind → String
  | .whileLoop => "WHILE"
  | .repeatLoop => "REPEAT"

/-- The loop that a line in upper case starts. -/
def openedBy? (line : String) : Option LoopKind :=
  if Text.hasStart line "WHILE " || line == "WHILE" then some .whileLoop
  else if Text.hasStart line "REPEAT" then some .repeatLoop
  else none

/-- A line in upper case ends the loop. -/
def closedBy (kind : LoopKind) (line : String) : Bool :=
  match kind with
  | .whileLoop => Text.hasStart line "END_WHILE"
  | .repeatLoop => Text.hasStart line "UNTIL"

end LoopKind

/-- The lines of one outermost loop, joined, with the index of its first line. -/
structure LoopBlock where
  kind : LoopKind
  start : Nat
  text : String
  deriving DecidableEq, Inhabited, Repr

/-- The loops among numbered lines, where one may be open. -/
def loopBlocksFrom : Option LoopBlock → List (String × Nat) → List LoopBlock
  | current, [] => current.toList
  | some block, (line, _) :: rest =>
    let block := { block with text := block.text ++ "\n" ++ line }
    if block.kind.closedBy (Text.upper (Text.trim line)) then block :: loopBlocksFrom none rest
    else loopBlocksFrom (some block) rest
  | none, (line, start) :: rest =>
    match LoopKind.openedBy? (Text.upper (Text.trim line)) with
    | some kind => loopBlocksFrom (some { kind, start, text := line }) rest
    | none => loopBlocksFrom none rest

/-- The loops of a code with their lines, without comments. A loop that is not closed reaches to
the end. -/
def loopBlocks (code : String) : List LoopBlock :=
  loopBlocksFrom none (uncommentedLines code).zipIdx

def exitPattern : Pattern.Program :=
  Pattern.compile "(?i)\\bEXIT\\b"

def counterLimitPattern : Pattern.Program :=
  Pattern.compile "(?i)\\b(COUNT|COUNTER|ITERATION|INDEX)\\s*<\\s*\\d+"

def timeoutPattern : Pattern.Program :=
  Pattern.compile "(?i)\\b(TIMEOUT|TIME|ELAPSED)\\b"

def namedLimitPattern : Pattern.Program :=
  Pattern.compile "(?i)\\bMAX_\\w+"

/-- Something in the loop looks like a way out. -/
def LoopBlock.isBounded (block : LoopBlock) : Bool :=
  [exitPattern, counterLimitPattern, timeoutPattern, namedLimitPattern].any (·.isMatch block.text)

/-- Loops without a visible way out. -/
def unboundedLoop : Rule where
  id := "QA015"
  name := "Infinite loop risk"
  description := "Detects WHILE/REPEAT loops without EXIT, counter limit or timeout"
  severity := .warning
  onLogic change :=
    ((loopBlocks (change.codeToCheck?.getD "")).filter fun block => !block.isBounded).map
      fun block =>
        { category := Category.safety
          title := "Infinite loop risk"
          line := change.firstLine + block.start
          description := s!"{block.kind.keyword} loop has no EXIT, iteration limit or timeout"
          whyDangerous :=
            "A loop that never terminates exceeds the task cycle time and trips the watchdog."
          recommendation := "Add an iteration counter limit (e.g. counter < MAX_ITERATIONS) or " ++
            "a timeout with EXIT."
          newSnippet := quoted block.text 200 }

def elsifPattern : Pattern.Program :=
  Pattern.compile "(?i)\\bELSIF\\b"

def caseLabelPattern : Pattern.Program :=
  Pattern.compile "(?m)^\\s*\\d+\\s*:"

def loopPattern : Pattern.Program :=
  Pattern.compile "(?i)\\b(FOR|WHILE|REPEAT)\\b"

def connectivePattern : Pattern.Program :=
  Pattern.compile "(?i)\\b(AND|OR)\\b"

/-- Number of decisions in a code, estimated from its keywords, plus one. -/
def textComplexity (code : String) : Nat :=
  let bare := Text.joined "\n" (uncommentedLines code)
  1 + ifPattern.count bare + elsifPattern.count bare + caseLabelPattern.count bare +
    loopPattern.count bare + connectivePattern.count bare

/-- Code with too many decisions. -/
def highComplexity (threshold : Nat) : Rule where
  id := "QA017"
  name := "High complexity"
  description := "Detects logic whose cyclomatic complexity reaches the threshold"
  severity := .info
  onLogic change :=
    match change.codeToCheck? with
    | none => []
    | some code =>
      let complexity := textComplexity code
      if complexity < threshold then []
      else [{
        category := Category.complexity
        title := "High cyclomatic complexity"
        line := change.firstLine
        description :=
          s!"{change.name} has cyclomatic complexity {complexity} (threshold {threshold})"
        whyDangerous :=
          "Every independent path needs a test; high counts leave paths unverified."
        recommendation := "Split decision logic into smaller units or replace IF chains with a " ++
          "CASE on state." }]

end PlcAudit.Review
