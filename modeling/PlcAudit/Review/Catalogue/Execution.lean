import PlcAudit.Review.Catalogue.Basic

/-!
Rows about running code: unused code, tasks, objects and safety.
-/

namespace PlcAudit.Review

/-- Code that never runs or has no effect. -/
def unusedCodeRows : List Row := [
  { id := "SA0001"
    name := "Unreachable code"
    severity := .warning
    area := .unusedCode
    target := .logic
    pattern := "(?i)\\bIF\\s+(FALSE|0\\s*=\\s*1|1\\s*=\\s*0)\\s+THEN"
    title := "Condition is always false"
    recommendation := "Remove the dead branch or replace the constant with the intended condition." },
  { id := "SA0002"
    name := "Empty object"
    severity := .warning
    area := .unusedCode
    target := .logic
    pattern :=
      "(?i)\\b(PROGRAM|FUNCTION_BLOCK|FUNCTION|METHOD)\\s+\\w+(\\s*:\\s*\\w+)?\\s*END_(PROGRAM|FUNCTION_BLOCK|FUNCTION|METHOD)\\b"
    title := "POU without declarations or body"
    recommendation := "Implement the POU or delete it." },
  { id := "SA0003"
    name := "Empty statement"
    severity := .info
    area := .unusedCode
    target := .logic
    pattern := "(?m)^\\s*;\\s*$"
    title := "Empty statement"
    recommendation := "Delete the stray semicolon." },
  { id := "SA0009"
    name := "Unused return value"
    severity := .warning
    area := .unusedCode
    target := .logic
    pattern := "(?m)^\\s*F_\\w+\\s*\\([^;]*\\)\\s*;"
    title := "Function result discarded"
    recommendation := "Assign the result and check it, error codes in particular." },
  { id := "SA0022"
    name := "Return value never assigned"
    severity := .warning
    area := .unusedCode
    target := .logic
    pattern := "(?is)\\bFUNCTION\\s+\\w+\\s*:\\s*\\w+\\s*(?:[^:]|:[^=])*?END_FUNCTION\\b"
    title := "Function never assigns a result"
    recommendation := "Assign the function name before every return path." },
  { id := "SA0031"
    name := "Unused signature"
    severity := .warning
    area := .unusedCode
    target := .logic
    pattern := "(?i)\\bMETHOD\\s+(PRIVATE|INTERNAL)\\s+\\w+"
    title := "Private method"
    recommendation := "Check that the method is called; remove it otherwise."
    isDefault := false },
  { id := "SA0032"
    name := "Unused enumeration constant"
    severity := .info
    area := .unusedCode
    target := .dataType
    pattern := "(?i)\\b(unused|reserved|spare)\\w*\\s*(:=|,|\\))"
    title := "Placeholder enumeration value"
    recommendation := "Remove enumeration values nothing refers to."
    isDefault := false },
  { id := "SA0033"
    name := "Unused variable"
    severity := .warning
    area := .unusedCode
    target := .logic
    pattern := "(?im)^\\s*(dummy|unused|tmp)\\w*\\s*:\\s*\\w+"
    title := "Declaration looks unused"
    recommendation := "Remove the variable or use it."
    isDefault := false },
  { id := "SA0034"
    name := "Unused input"
    severity := .warning
    area := .unusedCode
    target := .logic
    pattern := "(?is)\\bVAR_INPUT\\b(?:[^E]|E[^N]|EN[^D])*?\\b(unused|dummy|reserved)\\w*\\s*:"
    title := "Placeholder input"
    recommendation := "Remove inputs the block never reads."
    isDefault := false },
  { id := "SA0035"
    name := "Unused output"
    severity := .warning
    area := .unusedCode
    target := .logic
    pattern := "(?is)\\bVAR_OUTPUT\\b(?:[^E]|E[^N]|EN[^D])*?\\b(unused|dummy|reserved)\\w*\\s*:"
    title := "Placeholder output"
    recommendation := "Remove outputs the block never writes."
    isDefault := false },
  { id := "SA0036"
    name := "Unused in-out"
    severity := .warning
    area := .unusedCode
    target := .logic
    pattern := "(?is)\\bVAR_IN_OUT\\b(?:[^E]|E[^N]|EN[^D])*?\\b(unused|dummy|reserved)\\w*\\s*:"
    title := "Placeholder in-out parameter"
    recommendation := "Remove in-out parameters the block never touches."
    isDefault := false },
  { id := "SA0037"
    name := "Unused temporary"
    severity := .info
    area := .unusedCode
    target := .logic
    pattern := "(?is)\\bVAR_TEMP\\b(?:[^E]|E[^N]|EN[^D])*?\\b(unused|dummy|reserved)\\w*\\s*:"
    title := "Placeholder temporary"
    recommendation := "Remove temporaries the code never uses."
    isDefault := false },
  { id := "SA0038"
    name := "Write-only variable"
    severity := .warning
    area := .unusedCode
    target := .variable
    pattern := "(?i)^(dummy|unused)\\w*\\s*:"
    title := "Variable named as write-only"
    recommendation := "Drop the variable if nothing reads it." },
  { id := "SA0097"
    name := "Empty loop"
    severity := .warning
    area := .unusedCode
    target := .logic
    pattern := "(?i)\\bDO\\s*END_(FOR|WHILE)\\b|\\bREPEAT\\s*UNTIL\\b"
    title := "Loop with empty body"
    recommendation := "Remove the loop or add the missing body." },
  { id := "SA0101"
    name := "Unused library reference"
    severity := .info
    area := .unusedCode
    target := .logic
    pattern := "(?i)\\bUSING\\s+\\w+\\s*;"
    title := "Namespace import"
    recommendation := "Remove imports nothing refers to."
    isDefault := false },
  { id := "SA0170"
    name := "Unused USING"
    severity := .info
    area := .unusedCode
    target := .logic
    pattern := "(?im)^\\s*USING\\s+[\\w.]+\\s*;"
    title := "USING directive"
    recommendation := "Remove directives nothing refers to."
    isDefault := false }]

/-- Access from several tasks. -/
def concurrencyRows : List Row := [
  { id := "SA0004"
    name := "Multiple write access on output"
    severity := .warning
    area := .concurrency
    target := .logic
    pattern := "(?m)^\\s*(q[A-Z]|Q_|o[A-Z])\\w*\\s*:="
    title := "Output written in code"
    recommendation := "Write each output from one place per cycle."
    isDefault := false },
  { id := "SA0006"
    name := "Write access from several tasks"
    severity := .critical
    area := .concurrency
    target := .variable
    pattern := "^(g[A-Z]|G_)\\w*\\s*:"
    title := "Global variable added"
    recommendation := "Decide which task owns the variable and keep writes in that task."
    isDefault := false },
  { id := "SA0141"
    name := "Task shared variable"
    severity := .warning
    area := .concurrency
    target := .logic
    pattern := "(?i)\\bVAR_GLOBAL\\b"
    title := "Global variables may be written by several tasks"
    recommendation := "Confine writes to one task or protect them with a lock."
    isDefault := false },
  { id := "SA0142"
    name := "Synchronisation primitive"
    severity := .info
    area := .concurrency
    target := .logic
    pattern := "\\b(FB_IecCriticalSection|FB_Mutex|FB_Semaphore)\\b"
    title := "Lock in cyclic code"
    recommendation := "Keep critical sections short and release on every path."
    isDefault := false },
  { id := "SA0143"
    name := "Task priority"
    severity := .info
    area := .concurrency
    target := .logic
    pattern := "(?i)\\bPriority\\s*:=\\s*\\d+"
    title := "Task priority set in code"
    recommendation := "Configure priorities in the task configuration."
    isDefault := false },
  { id := "SA0144"
    name := "Blocking call"
    severity := .warning
    area := .concurrency
    target := .logic
    pattern := "(?i)\\b(SLEEP|DELAY|WAIT_FOR)\\s*\\("
    title := "Blocking call in cyclic code"
    recommendation := "Use a timer function block instead of waiting inside the cycle." },
  { id := "SA0145"
    name := "Spin lock"
    severity := .warning
    area := .concurrency
    target := .logic
    pattern := "(?i)\\bWHILE\\s+(NOT\\s+)?\\w+\\s+DO\\s*;?\\s*END_WHILE"
    title := "Busy wait on a flag"
    recommendation := "Poll the flag once per cycle instead of looping." },
  { id := "SA0146"
    name := "Non-atomic increment"
    severity := .warning
    area := .concurrency
    target := .logic
    pattern := "\\bg[A-Z]\\w*\\s*:=\\s*g[A-Z]\\w*\\s*[+-]\\s*1\\s*;"
    title := "Read-modify-write on a global"
    recommendation := "Use an atomic operation or confine writes to one task."
    isDefault := false },
  { id := "SA0147"
    name := "Cycle time risk"
    severity := .warning
    area := .concurrency
    target := .logic
    pattern := "(?i)\\bFOR\\s+\\w+\\s*:=\\s*\\d+\\s+TO\\s+\\d\x7b5,\x7d\\b"
    title := "Loop with ten thousand or more iterations"
    recommendation := "Spread the work over several cycles." },
  { id := "SA0148"
    name := "Watchdog consideration"
    severity := .info
    area := .concurrency
    target := .logic
    pattern := "(?i)\\bWHILE\\b"
    title := "WHILE loop in cyclic code"
    recommendation := "Bound the iterations so the task watchdog cannot fire."
    isDefault := false },
  { id := "SA0149"
    name := "Deadlock risk"
    severity := .critical
    area := .concurrency
    target := .logic
    pattern := "(?is)\\.Enter\\s*\\(\\s*\\).*?\\.Enter\\s*\\(\\s*\\)"
    title := "Nested lock acquisition"
    recommendation := "Acquire locks in one fixed order and release before taking the next." },
  { id := "SA0150"
    name := "Interrupts disabled"
    severity := .warning
    area := .concurrency
    target := .logic
    pattern := "\\b(DisableInterrupts?|__disable_irq|TcInterruptDisable)\\b"
    title := "Interrupts disabled from PLC code"
    recommendation := "Use critical sections instead of disabling interrupts." }]

/-- Function blocks, methods and interfaces. -/
def objectsRows : List Row := [
  { id := "SA0014"
    name := "Assignment of instances"
    severity := .warning
    area := .objects
    target := .logic
    pattern := "\\bfb\\w+\\s*:=\\s*fb\\w+\\s*;"
    title := "Function block instance copied by assignment"
    recommendation :=
      "Copy the needed outputs or use a reference; instance copies duplicate internal state." },
  { id := "SA0068"
    name := "Circular reference"
    severity := .warning
    area := .objects
    target := .variable
    pattern := "(?i)^\\w+\\s*:\\s*(POINTER|REFERENCE)\\s+TO\\s+FB_\\w+"
    title := "Reference to a function block"
    recommendation := "Check that the referenced block does not point back."
    isDefault := false },
  { id := "SA0069"
    name := "Unimplemented interface"
    severity := .critical
    area := .objects
    target := .logic
    pattern := "(?is)\\bIMPLEMENTS\\s+\\w+(?:[^M]|M[^E])*?END_FUNCTION_BLOCK"
    title := "Interface declared but no method implemented"
    recommendation := "Implement every interface method." },
  { id := "SA0108"
    name := "Missing SUPER call"
    severity := .warning
    area := .objects
    target := .logic
    pattern :=
      "(?is)\\bMETHOD\\s+(PUBLIC\\s+|PROTECTED\\s+)?OVERRIDE\\s+\\w+(?:[^S]|S[^U]|SU[^P])*?END_METHOD"
    title := "Override does not call SUPER^"
    recommendation := "Call the base implementation unless replacing it is intended." },
  { id := "SA0109"
    name := "THIS pointer stored"
    severity := .warning
    area := .objects
    target := .logic
    pattern := "(?i)\\w+\\s*:=\\s*THIS\\s*;"
    title := "THIS pointer stored in a variable"
    recommendation :=
      "Stored THIS pointers dangle after an online change; pass references per call." },
  { id := "SA0110"
    name := "FINAL method"
    severity := .critical
    area := .objects
    target := .logic
    pattern := "(?i)\\bMETHOD\\s+(PUBLIC\\s+|PROTECTED\\s+)?FINAL\\b"
    title := "Method cannot be overridden"
    recommendation := "Check that derived blocks do not need to override it."
    isDefault := false },
  { id := "SA0111"
    name := "Interface segregation"
    severity := .info
    area := .objects
    target := .dataType
    pattern := "(?is)\\bINTERFACE\\b(.*?\\bMETHOD\\b)\x7b8\x7d"
    title := "Interface with many methods"
    recommendation := "Split it into smaller role interfaces."
    isDefault := false },
  { id := "SA0112"
    name := "Single responsibility"
    severity := .info
    area := .objects
    target := .logic
    pattern := "(?is)(\\bMETHOD\\b.*?)\x7b15\x7d"
    title := "Function block with many methods"
    recommendation := "Split responsibilities into separate blocks."
    isDefault := false },
  { id := "SA0113"
    name := "High coupling"
    severity := .info
    area := .objects
    target := .logic
    pattern := "(?s)(:\\s*FB_\\w+.*?)\x7b10\x7d"
    title := "Many function block instances"
    recommendation := "Reduce the number of collaborators or group them."
    isDefault := false },
  { id := "SA0114"
    name := "Low cohesion"
    severity := .info
    area := .objects
    target := .logic
    pattern := "(?is)(\\bMETHOD\\s+\\w+.*?)\x7b10\x7d"
    title := "Many unrelated methods"
    recommendation := "Keep methods that share state together and move the rest."
    isDefault := false },
  { id := "SA0124"
    name := "Many interfaces"
    severity := .info
    area := .objects
    target := .logic
    pattern := "(?i)\\bIMPLEMENTS\\s+\\w+(\\s*,\\s*\\w+)\x7b2,\x7d"
    title := "Function block implements three or more interfaces"
    recommendation := "Check whether the block has too many roles." },
  { id := "SA0125"
    name := "Property with logic"
    severity := .info
    area := .objects
    target := .logic
    pattern := "(?is)\\bPROPERTY\\b(?:[^E]|E[^N]|EN[^D])*?\\b(FOR|WHILE|REPEAT)\\b"
    title := "Loop inside a property"
    recommendation := "Keep properties cheap; move work into a method." },
  { id := "SA0161"
    name := "Inheritance dependency"
    severity := .warning
    area := .objects
    target := .logic
    pattern := "(?i)\\bEXTENDS\\s+\\w+"
    title := "Function block extends another"
    recommendation := "Check that the base does not depend on the derived block."
    isDefault := false },
  { id := "SA0167"
    name := "Complex inheritance"
    severity := .info
    area := .objects
    target := .logic
    pattern := "(?s)SUPER\\^(.*?SUPER\\^)\x7b2\x7d"
    title := "Several SUPER^ calls in one block"
    recommendation := "Flatten the hierarchy or delegate instead of inheriting."
    isDefault := false }]

/-- Behaviour that endangers a plant. -/
def safetyRows : List Row := [
  { id := "SA0021"
    name := "Address of temporary variable"
    severity := .critical
    area := .safety
    target := .logic
    pattern := "\\bp[A-Z]\\w*\\s*:=\\s*(?i:ADR)\\s*\\(\\s*(?i:tmp|temp)\\w*\\s*\\)"
    title := "Pointer to a temporary variable"
    recommendation := "Point at a VAR_STAT or global; temporaries vanish when the call returns." },
  { id := "SA0026"
    name := "Direct address access"
    severity := .warning
    area := .safety
    target := .logic
    pattern := "%[IQM][XBWD]?\\d+(\\.\\d+)?"
    title := "Direct hardware address in code"
    recommendation := "Use mapped symbolic variables instead of %I/%Q/%M addresses." },
  { id := "SA0030"
    name := "Missing error handling"
    severity := .warning
    area := .safety
    target := .logic
    pattern := "\\w+\\s*/\\s*[A-Za-z_]\\w*\\s*;"
    title := "Division by a variable without visible guard"
    recommendation := "Check the divisor before dividing."
    isDefault := false },
  { id := "SA0115"
    name := "Hard-coded IP address"
    severity := .warning
    area := .safety
    target := .logic
    pattern := "'\\d\x7b1,3\x7d\\.\\d\x7b1,3\x7d\\.\\d\x7b1,3\x7d\\.\\d\x7b1,3\x7d'"
    title := "Hard-coded IP address"
    recommendation := "Move network addresses into configuration parameters." },
  { id := "SA0116"
    name := "Hard-coded path"
    severity := .warning
    area := .safety
    target := .logic
    pattern := "(?i)'[A-Z]:\\\\[^']*'|'/(usr|home|tmp|var|etc)/[^']*'"
    title := "Hard-coded file path"
    recommendation := "Move file paths into configuration parameters." },
  { id := "SA0131"
    name := "Unchecked pointer dereference"
    severity := .critical
    area := .safety
    target := .logic
    pattern := "\\bp[A-Z]\\w*\\^"
    title := "Pointer dereferenced"
    recommendation := "Check the pointer against 0 before dereferencing."
    isDefault := false },
  { id := "SA0132"
    name := "Array index validation"
    severity := .warning
    area := .safety
    target := .logic
    pattern := "\\w+\\[\\s*[A-Za-z_]\\w*\\s*\\]"
    title := "Array indexed by a variable"
    recommendation := "Check the index against the array bounds."
    isDefault := false },
  { id := "SA0171"
    name := "Safety variable protection"
    severity := .critical
    area := .safety
    target := .dataType
    pattern := "(?i)\\b(bSafety|xSafety|bEStop|xEStop|bEmergency)\\w*\\s*:\\s*BOOL\\s*:=\\s*TRUE"
    title := "Safety signal defaults to TRUE"
    recommendation := "Safety signals default to the safe state FALSE." },
  { id := "SA0172"
    name := "Check after division"
    severity := .warning
    area := .safety
    target := .logic
    pattern := "(?is)\\w+\\s*/\\s*[A-Za-z_]\\w*\\s*;.*?\\bIF\\s+\\w+\\s*<>\\s*0"
    title := "Zero check placed after the division"
    recommendation := "Check the divisor before dividing."
    isDefault := false }]

end PlcAudit.Review
