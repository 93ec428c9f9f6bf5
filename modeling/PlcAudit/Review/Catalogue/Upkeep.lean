import PlcAudit.Review.Catalogue.Basic

/-!
Rows about the upkeep of code: sizes, comments and the rest.
-/

namespace PlcAudit.Review

/-- Sizes and counts. -/
def metricsRows : List Row := [
  { id := "SA0050"
    name := "Complex expression"
    severity := .warning
    area := .metrics
    target := .logic
    pattern := "(?i)(\\b(AND|OR|XOR)\\b[^;\\n]*)\x7b4,\x7d"
    title := "Expression with many boolean operators"
    recommendation := "Split the condition into named intermediate results." },
  { id := "SA0051"
    name := "POU too long"
    severity := .warning
    area := .metrics
    target := .logic
    pattern := "(?i)\\b(FUNCTION_BLOCK|FUNCTION|METHOD|PROGRAM)\\s+\\w+(?:[^\\n]*\\n)\x7b200\x7d"
    title := "POU longer than 200 lines"
    recommendation := "Split the POU into smaller functions or methods."
    isDefault := false },
  { id := "SA0052"
    name := "Too many parameters"
    severity := .warning
    area := .metrics
    target := .logic
    pattern := "(?is)\\bVAR_INPUT\\b(\\s*\\w+\\s*:[^;]*;)\x7b8,\x7d"
    title := "Eight or more inputs"
    recommendation := "Group related inputs into a structure." },
  { id := "SA0053"
    name := "Nesting too deep"
    severity := .warning
    area := .metrics
    target := .logic
    pattern := "(?m)^(\\t\x7b5,\x7d| \x7b20,\x7d)(IF|FOR|WHILE|CASE|REPEAT)\\b"
    title := "Control statement nested five levels deep"
    recommendation := "Extract the inner logic into its own method."
    isDefault := false },
  { id := "SA0054"
    name := "Cyclomatic complexity"
    severity := .warning
    area := .metrics
    target := .logic
    pattern := "(?is)(\\b(IF|ELSIF|WHILE|FOR|REPEAT)\\b.*?)\x7b15\x7d"
    title := "Many decision points in one block"
    recommendation := "Split the block; each decision point needs its own test case."
    isDefault := false },
  { id := "SA0055"
    name := "Cognitive complexity"
    severity := .info
    area := .metrics
    target := .logic
    pattern := "(?i)\\b(AND|OR)\\b[^;\\n]*\\b(AND|OR)\\b[^;\\n]*\\bNOT\\b"
    title := "Mixed AND/OR/NOT in one condition"
    recommendation := "Name the partial conditions."
    isDefault := false },
  { id := "SA0140"
    name := "Many RETURN statements"
    severity := .info
    area := .metrics
    target := .logic
    pattern := "(?is)(\\bRETURN\\s*;.*?)\x7b4\x7d"
    title := "Four or more RETURN statements"
    recommendation := "Restructure so the block has fewer exits."
    isDefault := false },
  { id := "SA0160"
    name := "Program structure complexity"
    severity := .info
    area := .metrics
    target := .logic
    pattern := "(?is)\\bPROGRAM\\b(.*?\\b(METHOD|ACTION)\\b)\x7b10\x7d"
    title := "Program with many actions or methods"
    recommendation := "Move parts of the program into function blocks."
    isDefault := false },
  { id := "SA0162"
    name := "Module too large"
    severity := .warning
    area := .metrics
    target := .logic
    pattern := "(?:[^\\n]*\\n)\x7b500\x7d"
    title := "Block longer than 500 lines"
    recommendation := "Split the module by responsibility."
    isDefault := false }]

/-- Comments and documentation. -/
def commentsRows : List Row := [
  { id := "SA0028"
    name := "Nested comment"
    severity := .warning
    area := .comments
    target := .logic
    pattern := "\\(\\*([^*]|\\*[^)])*\\(\\*"
    title := "Nested block comment"
    recommendation := "Nested (* *) comments are not portable; close the outer comment first." },
  { id := "SA0029"
    name := "TODO comment"
    severity := .info
    area := .comments
    target := .logic
    pattern := "(?i)//\\s*(TODO|FIXME|HACK|XXX|BUG):"
    title := "Open work marker in comment"
    recommendation := "Resolve the marker or track it outside the code." },
  { id := "SA0056"
    name := "Insufficient comments"
    severity := .info
    area := .comments
    target := .logic
    pattern := "(?s)\\A(?:[^/(]|/[^/]|\\([^*])*\\z"
    title := "Code without any comment"
    recommendation := "Explain intent and units in comments."
    isDefault := false },
  { id := "SA0057"
    name := "Missing header comment"
    severity := .info
    area := .comments
    target := .logic
    pattern := "(?i)\\A\\s*(FUNCTION_BLOCK|FUNCTION|PROGRAM|METHOD)\\s+\\w+"
    title := "POU starts without a header comment"
    recommendation := "Describe purpose, inputs and outputs in a header comment."
    isDefault := false },
  { id := "SA0058"
    name := "Outdated comment"
    severity := .info
    area := .comments
    target := .logic
    pattern := "(?i)(//|\\(\\*)[^\\n]*\\b(OLD|OBSOLETE|DEPRECATED)\\b"
    title := "Comment marks code as outdated"
    recommendation := "Remove the outdated code or update the comment." },
  { id := "SA0059"
    name := "Commented-out code"
    severity := .warning
    area := .comments
    target := .logic
    pattern :=
      "(?im)//\\s*(\\w+\\s*:=|IF\\s|FOR\\s|WHILE\\s|END_)|\\(\\*\\s*(\\w+\\s*:=|IF\\s|FOR\\s|WHILE\\s)"
    title := "Code left in a comment"
    recommendation := "Delete it; version control keeps the history." },
  { id := "SA0134"
    name := "Missing test note"
    severity := .info
    area := .comments
    target := .logic
    pattern := "(?i)\\b(NEEDS?\\s*TEST|TODO:\\s*TEST|TEST\\s*REQUIRED)\\b"
    title := "Code marked as untested"
    recommendation := "Add the test and remove the marker." },
  { id := "SA0135"
    name := "FIXME comment"
    severity := .warning
    area := .comments
    target := .logic
    pattern := "(?i)\\bFIXME\\b"
    title := "FIXME marker"
    recommendation := "Fix the marked defect before release." },
  { id := "SA0158"
    name := "Physical value without range"
    severity := .info
    area := .comments
    target := .variable
    pattern :=
      "(?i)^\\w*(Temperature|Pressure|Speed|Position|Velocity|Current|Voltage)\\w*\\s*:\\s*L?REAL\\b"
    title := "Physical quantity without documented range"
    recommendation := "Document unit and valid range next to the declaration."
    isDefault := false },
  { id := "SA0180"
    name := "Documentation level"
    severity := .info
    area := .comments
    target := .logic
    pattern := "(?im)^\\s*METHOD\\s+PUBLIC\\s+\\w+[^\\n]*\\n\\s*VAR"
    title := "Public method without comment"
    recommendation := "Document what the method does and what it returns."
    isDefault := false }]

/-- What belongs nowhere else. -/
def miscellaneousRows : List Row := [
  { id := "SA0168"
    name := "Hard-coded timing"
    severity := .info
    area := .miscellaneous
    target := .logic
    pattern := "(?i)\\bT#\\d+(MS|S|M|H)\\b"
    title := "Hard-coded time literal"
    recommendation := "Move timing values into named constants or parameters."
    isDefault := false },
  { id := "SA0169"
    name := "Incomplete implementation"
    severity := .warning
    area := .miscellaneous
    target := .logic
    pattern := "(?i)\\bNOT[_ ]IMPLEMENTED\\b"
    title := "Unfinished implementation"
    recommendation := "Complete the implementation or remove the placeholder." }]

end PlcAudit.Review
