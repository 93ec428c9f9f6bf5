import PlcAudit.Review.Catalogue.Basic

/-!
Rows about operators and statements.
-/

namespace PlcAudit.Review

/-- Operators and statements. -/
def operationsRows : List Row := [
  { id := "SA0007"
    name := "Address operator on constant"
    severity := .warning
    area := .operations
    target := .logic
    pattern := "\\bADR\\s*\\(\\s*([A-Z_][A-Z0-9_]*|[0-9]+)\\s*\\)"
    title := "ADR applied to a constant"
    recommendation := "Take the address of a variable; constants may live in read-only memory." },
  { id := "SA0017"
    name := "Non-regular assignment to pointer"
    severity := .critical
    area := .operations
    target := .logic
    pattern := "\\bp[A-Z]\\w*\\s*:=\\s*[1-9][0-9]*\\s*;"
    title := "Pointer assigned a literal address"
    recommendation := "Assign pointers only from ADR(), another pointer or 0." },
  { id := "SA0018"
    name := "Unusual bit access"
    severity := .warning
    area := .operations
    target := .logic
    pattern := "\\b[in][A-Z]\\w*\\.\\d+\\b"
    title := "Bit access on a signed integer"
    recommendation := "Use an unsigned type or mask with AND."
    isDefault := false },
  { id := "SA0040"
    name := "Division by zero"
    severity := .critical
    area := .operations
    target := .logic
    pattern := "(?i)(/|\\bMOD)\\s*0+(\\.0+)?\\s*(;|\\))"
    title := "Division by literal zero"
    recommendation := "Guard the divisor: IF divisor <> 0 THEN ... END_IF" },
  { id := "SA0041"
    name := "Loop-invariant code"
    severity := .info
    area := .operations
    target := .logic
    pattern :=
      "(?is)\\bFOR\\b[^;]*?\\bDO\\b(?:[^E]|E[^N]|EN[^D])*?\\w+\\s*:=\\s*\\d+\\s*[-+*/]\\s*\\d+\\s*;"
    title := "Constant expression computed inside a loop"
    recommendation := "Compute the value once before the loop." },
  { id := "SA0043"
    name := "Suspicious semicolon"
    severity := .warning
    area := .operations
    target := .logic
    pattern := "(?im)\\b(THEN|DO)\\s*;\\s*$"
    title := "Semicolon directly after THEN or DO"
    recommendation := "Remove the semicolon; the block body is probably not what was intended." },
  { id := "SA0044"
    name := "Parenthesis mismatch"
    severity := .critical
    area := .operations
    target := .logic
    pattern := "(?m)\\([^*()\\n;][^()\\n;]*;"
    title := "Statement ends inside an open parenthesis"
    recommendation := "Close the parenthesis before the semicolon." },
  { id := "SA0045"
    name := "Assignment in condition"
    severity := .warning
    area := .operations
    target := .logic
    pattern := "(?i)\\b(IF|WHILE)\\b[^;\\n]*?:=[^;\\n]*?\\b(THEN|DO)\\b"
    title := "Assignment inside a condition"
    recommendation := "Compute the value before the IF/WHILE and test the result." },
  { id := "SA0046"
    name := "Comparison with boolean literal"
    severity := .info
    area := .operations
    target := .logic
    pattern := "(?i)\\b\\w+\\s*(=|<>)\\s*(TRUE|FALSE)\\b"
    title := "Redundant comparison with TRUE/FALSE"
    recommendation := "Test the BOOL directly: IF bReady THEN / IF NOT bReady THEN" },
  { id := "SA0047"
    name := "Duplicate condition"
    severity := .warning
    area := .operations
    target := .logic
    pattern := "(?i)\\bELSIF\\s+TRUE\\s+THEN"
    title := "ELSIF TRUE hides later branches"
    recommendation := "Use ELSE, or give the branch its real condition." },
  { id := "SA0048"
    name := "String concatenation in loop"
    severity := .info
    area := .operations
    target := .logic
    pattern := "(?is)\\b(FOR|WHILE|REPEAT)\\b(?:[^E]|E[^N]|EN[^D])*?\\bCONCAT\\s*\\("
    title := "CONCAT inside a loop"
    recommendation := "Build the string once or use a buffer with explicit length." },
  { id := "SA0060"
    name := "Ineffective operation"
    severity := .warning
    area := .operations
    target := .logic
    pattern := "\\w+\\s*:=\\s*\\w+\\s*([+-]\\s*0|[*/]\\s*1)\\s*;"
    title := "Operation with no effect"
    recommendation := "Remove the operation or fix the operand." },
  { id := "SA0061"
    name := "Suspicious pointer operation"
    severity := .warning
    area := .operations
    target := .logic
    pattern := "(?i)\\bPOINTER\\s+TO\\b[^;]*[+-]\\s*\\d+"
    title := "Offset applied to a pointer"
    recommendation := "Use array indexing with bounds checks."
    isDefault := false },
  { id := "SA0062"
    name := "Constant condition"
    severity := .warning
    area := .operations
    target := .logic
    pattern := "(?i)\\b(IF|ELSIF)\\s+(TRUE|1\\s*=\\s*1|0\\s*=\\s*0)\\s+THEN"
    title := "Condition is always true"
    recommendation := "Remove the condition or restore the intended test." },
  { id := "SA0063"
    name := "Floating point equality"
    severity := .warning
    area := .operations
    target := .logic
    pattern := "(?i)\\b\\w+\\s*(=|<>)\\s*-?\\d+\\.\\d+\\b"
    title := "Exact comparison with a REAL literal"
    recommendation := "Compare against a tolerance: ABS(a - b) < EPSILON." },
  { id := "SA0064"
    name := "Pointer arithmetic"
    severity := .critical
    area := .operations
    target := .logic
    pattern := "\\bp[A-Z]\\w*\\s*:=\\s*(p[A-Z]\\w*|ADR\\s*\\([^)]*\\))\\s*[+\\-]"
    title := "Pointer arithmetic"
    recommendation := "Index an array or use SIZEOF-based offsets with explicit bounds checks." },
  { id := "SA0066"
    name := "Array out of bounds"
    severity := .critical
    area := .operations
    target := .logic
    pattern := "\\w+\\[\\s*-\\s*\\d+\\s*\\]"
    title := "Negative constant array index"
    recommendation := "Index within the declared bounds." },
  { id := "SA0070"
    name := "Empty CASE branch"
    severity := .warning
    area := .operations
    target := .logic
    pattern := "(?m)^\\s*[\\w.#]+(\\s*(,|\\.\\.)\\s*[\\w.#]+)*\\s*:\\s*;"
    title := "CASE label without statements"
    recommendation := "Handle the value or merge the label with another branch." },
  { id := "SA0071"
    name := "Missing ELSE"
    severity := .info
    area := .operations
    target := .logic
    pattern := "(?is)\\bELSIF\\b(?:[^E]|E[^LN]|EL[^S]|ELS[^E]|EN[^D])*\\bEND_IF\\b"
    title := "IF-ELSIF chain without ELSE"
    recommendation := "Add an ELSE branch for the remaining cases." },
  { id := "SA0072"
    name := "CASE without ELSE"
    severity := .warning
    area := .operations
    target := .logic
    pattern := "(?is)\\bCASE\\b(?:[^E]|E[^LN]|EL[^S]|ELS[^E]|EN[^D])*\\bEND_CASE\\b"
    title := "CASE statement without ELSE branch"
    recommendation := "Add ELSE to handle unexpected values." },
  { id := "SA0083"
    name := "String length overflow"
    severity := .warning
    area := .operations
    target := .logic
    pattern := "'[^'\\n]\x7b81,\x7d'"
    title := "String literal longer than the default STRING length"
    recommendation := "Declare the target as STRING(n) with enough room." },
  { id := "SA0094"
    name := "EXIT statement"
    severity := .info
    area := .operations
    target := .logic
    pattern := "(?i)\\bEXIT\\s*;"
    title := "EXIT inside loop"
    recommendation := "Prefer a loop condition that expresses the termination."
    isDefault := false },
  { id := "SA0095"
    name := "CONTINUE statement"
    severity := .info
    area := .operations
    target := .logic
    pattern := "(?i)\\bCONTINUE\\s*;"
    title := "CONTINUE inside loop"
    recommendation := "Restructure the loop body with IF instead of CONTINUE."
    isDefault := false },
  { id := "SA0096"
    name := "JMP statement"
    severity := .warning
    area := .operations
    target := .logic
    pattern := "(?i)\\bJMP\\s+\\w+\\s*;"
    title := "JMP statement"
    recommendation := "Replace jumps with structured control flow." },
  { id := "SA0098"
    name := "Potential infinite loop"
    severity := .warning
    area := .operations
    target := .logic
    pattern := "(?i)\\bWHILE\\s+(TRUE|1)\\s+DO\\b|\\bUNTIL\\s+(FALSE|0)\\s*;?\\s*END_REPEAT\\b"
    title := "Loop without a reachable exit condition"
    recommendation := "Give the loop a terminating condition or an iteration limit." },
  { id := "SA0099"
    name := "FOR counter modified"
    severity := .warning
    area := .operations
    target := .logic
    pattern := "(?is)\\bFOR\\s+\\w+\\s*:=[^;]*?\\bDO\\b(?:[^E]|E[^N]|EN[^D])*?\\b(i|j|k)\\s*:="
    title := "Loop counter assigned inside the loop"
    recommendation := "Leave the FOR counter alone; use WHILE for custom stepping."
    isDefault := false },
  { id := "SA0100"
    name := "SIZEOF on pointer"
    severity := .warning
    area := .operations
    target := .logic
    pattern := "\\b(?i:SIZEOF)\\s*\\(\\s*p[A-Z]\\w*\\s*\\)"
    title := "SIZEOF of a pointer"
    recommendation := "SIZEOF of a pointer is the pointer width; use SIZEOF of the pointee." },
  { id := "SA0102"
    name := "Inefficient array initialisation"
    severity := .info
    area := .operations
    target := .logic
    pattern :=
      "(?is)\\bFOR\\s+\\w+\\s*:=[^;]*?\\bDO\\s*\\w+\\s*\\[\\s*\\w+\\s*\\]\\s*:=\\s*0\\s*;\\s*END_FOR"
    title := "Array zeroed element by element"
    recommendation := "Use MEMSET with SIZEOF of the array." },
  { id := "SA0104"
    name := "MEMCPY/MEMMOVE use"
    severity := .warning
    area := .operations
    target := .logic
    pattern := "(?i)\\b(MEMCPY|MEMMOVE|MEMSET)\\s*\\("
    title := "Raw memory operation"
    recommendation := "Check that the size argument is computed with SIZEOF of the destination." },
  { id := "SA0105"
    name := "Recursive call"
    severity := .warning
    area := .operations
    target := .logic
    pattern := "(?i)\\bTHIS\\^\\s*\\.\\s*\\w+\\s*\\("
    title := "Method calls itself through THIS"
    recommendation := "Make sure the call chain terminates; stack space is fixed."
    isDefault := false },
  { id := "SA0106"
    name := "Dynamic memory allocation"
    severity := .warning
    area := .operations
    target := .logic
    pattern := "(?i)\\b(__NEW|__DELETE)\\s*\\("
    title := "Dynamic memory allocation"
    recommendation := "Allocate at initialisation time and check the returned pointer." },
  { id := "SA0117"
    name := "Bit operation precedence"
    severity := .warning
    area := .operations
    target := .logic
    pattern := "(?i)\\b(AND|OR|XOR)\\s+(16#|2#|8#)[0-9A-F_]+\\s*(=|<>)"
    title := "Mask compared without parentheses"
    recommendation := "Comparison binds tighter than AND; write (x AND 16#01) <> 0." },
  { id := "SA0118"
    name := "Integer overflow"
    severity := .warning
    area := .operations
    target := .logic
    pattern := "\\*\\s*[1-9]\\d\x7b2,\x7d\\b"
    title := "Multiplication by a large constant"
    recommendation := "Check the result type is wide enough or widen before multiplying." },
  { id := "SA0119"
    name := "TIME() use"
    severity := .info
    area := .operations
    target := .logic
    pattern := "(?i)\\bTIME\\s*\\(\\s*\\)"
    title := "System time read with TIME()"
    recommendation := "TIME() wraps around; measure durations with a timer block." },
  { id := "SA0127"
    name := "Loop bound from SIZEOF"
    severity := .warning
    area := .operations
    target := .logic
    pattern := "(?i)\\bFOR\\s+\\w+\\s*:=[^;]*?\\bTO\\s+SIZEOF\\s*\\("
    title := "Loop bound counts bytes, not elements"
    recommendation := "Divide by the element size or use UPPER_BOUND." },
  { id := "SA0128"
    name := "ACTION use"
    severity := .info
    area := .operations
    target := .logic
    pattern := "(?i)\\bACTION\\s+\\w+"
    title := "Action"
    recommendation := "Prefer methods; actions share all variables of the block."
    isDefault := false },
  { id := "SA0129"
    name := "FB_reinit call"
    severity := .warning
    area := .operations
    target := .logic
    pattern := "(?i)\\bFB_reinit\\s*\\("
    title := "Explicit FB_reinit call"
    recommendation :=
      "FB_reinit is called by the runtime after online change; do not call it from code." },
  { id := "SA0133"
    name := "Floating point loop counter"
    severity := .warning
    area := .operations
    target := .logic
    pattern := "(?i)\\bFOR\\s+\\w+\\s*:=\\s*-?\\d+\\.\\d+"
    title := "FOR loop with floating point bounds"
    recommendation := "Use an integer counter and derive the REAL value inside the loop." },
  { id := "SA0137"
    name := "Redundant condition"
    severity := .info
    area := .operations
    target := .logic
    pattern := "(?i)\\bNOT\\s+NOT\\b"
    title := "Double negation"
    recommendation := "Drop both NOTs." },
  { id := "SA0138"
    name := "Boolean literal assignment"
    severity := .info
    area := .operations
    target := .logic
    pattern :=
      "(?is)\\bIF\\s+[^;]+?\\s+THEN\\s+\\w+\\s*:=\\s*TRUE\\s*;\\s*ELSE\\s+\\w+\\s*:=\\s*FALSE\\s*;\\s*END_IF"
    title := "IF used to assign a condition"
    recommendation := "Assign the condition directly: x := condition;" },
  { id := "SA0139"
    name := "Empty exception handler"
    severity := .warning
    area := .operations
    target := .logic
    pattern := "(?is)__CATCH\\s*\\(\\s*\\w+\\s*\\)\\s*;?\\s*__ENDTRY"
    title := "__CATCH without handling"
    recommendation := "Log or react to the exception." },
  { id := "SA0173"
    name := "Unbounded retry"
    severity := .warning
    area := .operations
    target := .logic
    pattern := "(?i)\\bb?(retry|repeat|again)\\s*:=\\s*TRUE\\b"
    title := "Retry flag set without a limit"
    recommendation := "Count retries and give up after a fixed number." },
  { id := "SA0174"
    name := "Expensive call in loop"
    severity := .info
    area := .operations
    target := .logic
    pattern :=
      "(?is)\\b(FOR|WHILE|REPEAT)\\b(?:[^E]|E[^N]|EN[^D])*?\\b(MEMCPY|MEMSET|CONCAT|FIND|REPLACE|LOG|EXP|SQRT)\\s*\\("
    title := "Costly function called every iteration"
    recommendation := "Hoist the call out of the loop when its arguments do not change." },
  { id := "SA0175"
    name := "Cache-unfriendly access"
    severity := .info
    area := .operations
    target := .logic
    pattern := "\\w+\\[\\s*\\w+\\s*,\\s*\\w+\\s*\\]"
    title := "Two-dimensional array access"
    recommendation := "Iterate the last index in the inner loop."
    isDefault := false },
  { id := "SA0176"
    name := "Nested CONCAT"
    severity := .info
    area := .operations
    target := .logic
    pattern := "(?i)\\bCONCAT\\s*\\(\\s*CONCAT\\s*\\("
    title := "CONCAT nested in CONCAT"
    recommendation := "Build the string step by step or with a format function." },
  { id := "SA0177"
    name := "Parity by MOD"
    severity := .info
    area := .operations
    target := .logic
    pattern := "(?i)\\w+\\s+MOD\\s+2\\s*(=|<>)"
    title := "MOD 2 used to test parity"
    recommendation := "Test the lowest bit with AND 1." },
  { id := "SA0178"
    name := "Resource leak"
    severity := .warning
    area := .operations
    target := .logic
    pattern := "(?i)\\b(__NEW|FB_FileOpen|SysFileOpen)\\b"
    title := "Resource acquired"
    recommendation := "Release it (__DELETE, FB_FileClose) on every path."
    isDefault := false },
  { id := "SA0179"
    name := "Incomplete state machine"
    severity := .warning
    area := .operations
    target := .logic
    pattern :=
      "(?is)\\bCASE\\s+(e|n|i)?State\\s+OF\\b(?:[^E]|E[^LN]|EL[^S]|ELS[^E]|EN[^D])*\\bEND_CASE\\b"
    title := "State machine without ELSE branch"
    recommendation := "Add ELSE that moves to a safe state." }]

end PlcAudit.Review
