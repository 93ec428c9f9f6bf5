import PlcAudit.Review.Catalogue.Basic

/-!
Rows about declarations: their shape, names and initial values.
-/

namespace PlcAudit.Review

/-- The shape of declarations. -/
def declarationsRows : List Row := [
  { id := "SA0010"
    name := "Array with only one element"
    severity := .info
    area := .declarations
    target := .variable
    pattern := "(?i)ARRAY\\s*\\[\\s*(0\\s*\\.\\.\\s*0|1\\s*\\.\\.\\s*1)\\s*\\]"
    title := "Single-element array"
    recommendation := "Declare a plain variable instead of a one-element array." },
  { id := "SA0011"
    name := "Enumeration with one member"
    severity := .info
    area := .declarations
    target := .dataType
    pattern := ":\\s*\\(\\s*\\w+\\s*(:=\\s*[^,)]+)?\\)"
    title := "Single-member enumeration"
    recommendation := "Use a constant or a BOOL instead." },
  { id := "SA0013"
    name := "Local variable with global name"
    severity := .warning
    area := .declarations
    target := .variable
    pattern := "^(g[A-Z]|G_)\\w*\\s*:\\s*\\w+\\s*$"
    title := "Local name uses the global prefix"
    recommendation := "Rename the variable so it cannot be mistaken for a global."
    isDefault := false },
  { id := "SA0023"
    name := "Complex return value"
    severity := .info
    area := .declarations
    target := .logic
    pattern := "(?i)\\bFUNCTION\\s+\\w+\\s*:\\s*(ARRAY|STRUCT|ST_)"
    title := "Function returns a structured value"
    recommendation := "Return large values through VAR_IN_OUT or VAR_OUTPUT." },
  { id := "SA0089"
    name := "Attribute use"
    severity := .info
    area := .declarations
    target := .logic
    pattern := "\\\x7battribute\\s+'[^']+'\\\x7d"
    title := "Attribute pragma"
    recommendation := "Review attributes when changing the runtime."
    isDefault := false },
  { id := "SA0090"
    name := "Pragma use"
    severity := .info
    area := .declarations
    target := .logic
    pattern := "\\\x7b(attribute|warning|error|info)\\b[^\x7d]*\\\x7d"
    title := "Compiler pragma"
    recommendation := "Review pragmas when porting between runtimes."
    isDefault := false },
  { id := "SA0091"
    name := "Duplicate type definition"
    severity := .critical
    area := .declarations
    target := .dataType
    pattern := "(?is)\\bTYPE\\b.*\\bTYPE\\s+\\w+\\s*:"
    title := "Several types in one definition"
    recommendation := "Keep one type per definition and check the names are unique."
    isDefault := false },
  { id := "SA0092"
    name := "Circular type dependency"
    severity := .warning
    area := .declarations
    target := .dataType
    pattern := "(?i)\\w+\\s*:\\s*(POINTER|REFERENCE)\\s+TO\\s+ST_\\w+"
    title := "Structure refers to another structure by pointer"
    recommendation := "Check the referenced structure does not refer back."
    isDefault := false },
  { id := "SA0121"
    name := "Enumeration value out of range"
    severity := .warning
    area := .declarations
    target := .dataType
    pattern :=
      ":=\\s*(\\d\x7b6,\x7d|[4-9]\\d\x7b4\x7d|3[3-9]\\d\x7b3\x7d|32[89]\\d\x7b2\x7d|327[7-9]\\d|3276[89])\\s*[,)]"
    title := "Enumeration value beyond INT range"
    recommendation := "Give the enumeration an explicit base type wide enough for its values." },
  { id := "SA0122"
    name := "Deep structure access"
    severity := .info
    area := .declarations
    target := .variable
    pattern := "^\\w+(\\.\\w+)\x7b3,\x7d\\s*:"
    title := "Access path with more than three levels"
    recommendation := "Introduce an intermediate reference." },
  { id := "SA0126"
    name := "String buffer size"
    severity := .info
    area := .declarations
    target := .variable
    pattern := "(?i)^\\w+\\s*:\\s*W?STRING\\s*$"
    title := "STRING without explicit length"
    recommendation := "Declare the length, e.g. STRING(32), instead of the default 80 characters." },
  { id := "SA0163"
    name := "Conditional compilation"
    severity := .info
    area := .declarations
    target := .logic
    pattern := "(?i)\\\x7b\\s*(IF|ELSIF)\\s+defined\\s*\\("
    title := "Conditional compilation"
    recommendation := "Keep conditional compilation to configuration-specific code." }]

/-- Variables and constants. -/
def variablesRows : List Row := [
  { id := "SA0012"
    name := "Variable could be a constant"
    severity := .info
    area := .variablesAndConstants
    target := .variable
    pattern := "^[A-Z][A-Z0-9]*_[A-Z0-9_]*\\s*:\\s*\\w+\\s*:="
    title := "Constant-style name declared as a variable"
    recommendation := "Move the declaration into VAR CONSTANT."
    isDefault := false },
  { id := "SA0039"
    name := "Read-only value declared as variable"
    severity := .info
    area := .variablesAndConstants
    target := .variable
    pattern := "^(MAX_|MIN_|DEFAULT_|C_)\\w*\\s*:|^\\w+_CONST\\s*:"
    title := "Constant-style name declared as a variable"
    recommendation := "Declare the value in VAR CONSTANT so it cannot be overwritten." },
  { id := "SA0049"
    name := "Magic number"
    severity := .info
    area := .variablesAndConstants
    target := .logic
    pattern := "(?:[<>=*/+-]|:=)\\s*\\d\x7b3,\x7d(\\.\\d+)?\\b"
    title := "Unnamed numeric literal"
    recommendation := "Introduce a named constant."
    isDefault := false },
  { id := "SA0067"
    name := "Global access in function"
    severity := .warning
    area := .variablesAndConstants
    target := .logic
    pattern := "(?s)(?i:\\bFUNCTION\\s)(?:[^E]|E[^N]|EN[^D])*?\\b(GVL\\w*\\.\\w+|g[A-Z]\\w*)"
    title := "Function reads or writes a global"
    recommendation := "Pass the value as a parameter so the function stays side-effect free." },
  { id := "SA0086"
    name := "RETAIN variable"
    severity := .info
    area := .variablesAndConstants
    target := .logic
    pattern := "(?i)\\bVAR\\s+(RETAIN|PERSISTENT)\\b"
    title := "Retained variables declared"
    recommendation := "Document restart behaviour for retained values."
    isDefault := false },
  { id := "SA0088"
    name := "VAR_ACCESS use"
    severity := .info
    area := .variablesAndConstants
    target := .logic
    pattern := "(?i)\\bVAR_ACCESS\\b"
    title := "VAR_ACCESS block"
    recommendation := "Document which external clients use the access paths." },
  { id := "SA0103"
    name := "Excessive variable scope"
    severity := .info
    area := .variablesAndConstants
    target := .variable
    pattern := "^g[A-Z]\\w*\\s*:"
    title := "Global variable"
    recommendation := "Narrow the scope to the POU that uses it."
    isDefault := false },
  { id := "SA0164"
    name := "Duplicated constant"
    severity := .info
    area := .variablesAndConstants
    target := .logic
    pattern := "(?i)\\b\\w+\\s*:\\s*L?REAL\\s*:=\\s*(3\\.14\\d*|9\\.81\\d*)\\s*;"
    title := "Well-known constant redeclared"
    recommendation := "Declare it once in a shared constant list."
    isDefault := false }]

/-- Initial values. -/
def initializationRows : List Row := [
  { id := "SA0015"
    name := "Global access in FB_init"
    severity := .warning
    area := .initialization
    target := .logic
    pattern :=
      "(?s)(?i:\\bMETHOD\\s+FB_init\\b)(?:[^E]|E[^N]|EN[^D])*?\\b(GVL\\w*\\.\\w+|g[A-Z]\\w*)"
    title := "Global variable used in FB_init"
    recommendation := "Pass the value as an FB_init parameter; globals may not be initialised yet." },
  { id := "SA0065"
    name := "Variable without initial value"
    severity := .warning
    area := .initialization
    target := .variable
    pattern := "^\\s*\\w+\\s*:\\s*[A-Za-z_]\\w*\\s*$"
    title := "Variable declared without initial value"
    recommendation := "Give the declaration an explicit initial value."
    isDefault := false },
  { id := "SA0084"
    name := "Timer or counter not reset"
    severity := .warning
    area := .initialization
    target := .logic
    pattern := "(?i)\\b\\w+\\s*:\\s*(TON|TOF|TP|CTU|CTD|CTUD)\\s*;"
    title := "Timer or counter instance declared"
    recommendation :=
      "Reset it (IN := FALSE / RESET := TRUE) on every path that restarts the sequence."
    isDefault := false },
  { id := "SA0085"
    name := "Initialised PERSISTENT variable"
    severity := .info
    area := .initialization
    target := .logic
    pattern := "(?s)(?i:\\bVAR\\s+PERSISTENT\\b)(?:[^E]|E[^N]|EN[^D])*?:="
    title := "Initial value on a persistent variable"
    recommendation := "Persistent values survive restarts; the initial value only applies once." },
  { id := "SA0107"
    name := "Output written in FB_init"
    severity := .warning
    area := .initialization
    target := .logic
    pattern := "(?s)(?i:\\bMETHOD\\s+FB_init\\b)(?:[^E]|E[^N]|EN[^D])*?\\b(q|o)[A-Z]\\w*\\s*:="
    title := "Output assigned during initialisation"
    recommendation := "Set outputs in the cyclic body."
    isDefault := false },
  { id := "SA0165"
    name := "Incomplete array initialisation"
    severity := .warning
    area := .initialization
    target := .logic
    pattern :=
      "(?i)ARRAY\\s*\\[\\s*\\d+\\s*\\.\\.\\s*\\d+\\s*\\]\\s*OF\\s+\\w+\\s*:=\\s*\\[[^\\]*]*\\]"
    title := "Array initialiser may not cover every element"
    recommendation := "List every element or use n(value) repetition."
    isDefault := false }]

/-- Names and their marks. -/
def namesRows : List Row := [
  { id := "SA0025"
    name := "Unqualified enumeration constant"
    severity := .info
    area := .names
    target := .logic
    pattern := "(?:^|[^.\\w])e[A-Z][a-z]\\w*\\s*[;,)]"
    title := "Enumeration value without its type"
    recommendation := "Qualify enumeration values, e.g. E_State.eIdle."
    isDefault := false },
  { id := "SA0042"
    name := "Inconsistent namespace access"
    severity := .info
    area := .names
    target := .logic
    pattern := "\\bGVL_\\w+\\.\\w+"
    title := "Qualified global access"
    recommendation := "Qualify globals the same way everywhere."
    isDefault := false },
  { id := "SA0073"
    name := "Variable naming"
    severity := .info
    area := .names
    target := .variable
    pattern := "^[ac-wyz]\\w*\\s*:\\s*BOOL\\b"
    title := "BOOL variable without b/x prefix"
    recommendation := "Prefix BOOL variables with b or x."
    isDefault := false },
  { id := "SA0074"
    name := "Function block naming"
    severity := .info
    area := .names
    target := .logic
    pattern :=
      "\\b(?i:FUNCTION_BLOCK)\\s+([A-EG-Za-z_]\\w*|F[AC-Za-z0-9_]\\w*|FB[A-Za-z0-9]\\w*|FB)\\b"
    title := "Function block name without FB_ prefix"
    recommendation := "Name function blocks FB_<Name>." },
  { id := "SA0075"
    name := "Interface naming"
    severity := .info
    area := .names
    target := .dataType
    pattern := "\\b(?i:INTERFACE)\\s+([A-HJ-Za-z_]\\w*|I[A-Za-z0-9]\\w*)\\b"
    title := "Interface name without I_ prefix"
    recommendation := "Name interfaces I_<Name>." },
  { id := "SA0076"
    name := "Enumeration naming"
    severity := .info
    area := .names
    target := .dataType
    pattern := "\\b(?i:TYPE)\\s+([A-DF-Za-z_]\\w*|E[A-Za-z0-9]\\w*)\\s*:\\s*\\("
    title := "Enumeration name without E_ prefix"
    recommendation := "Name enumerations E_<Name>." },
  { id := "SA0077"
    name := "Structure naming"
    severity := .info
    area := .names
    target := .dataType
    pattern :=
      "\\b(?i:TYPE)\\s+([A-RT-Za-z_]\\w*|S[A-SU-Za-z0-9_]\\w*|ST[A-Za-z0-9]\\w*)\\s*:\\s*(?i:STRUCT)\\b"
    title := "Structure name without ST_ prefix"
    recommendation := "Name structures ST_<Name>." },
  { id := "SA0078"
    name := "Constant naming"
    severity := .info
    area := .names
    target := .logic
    pattern :=
      "(?s)(?i:\\bVAR\\s+CONSTANT\\b)(?:[^E]|E[^N]|EN[^D])*?(?m:^)\\s*[A-Z0-9_]*[a-z]\\w*\\s*:"
    title := "Constant name not in upper case"
    recommendation := "Write constants in UPPER_CASE."
    isDefault := false },
  { id := "SA0079"
    name := "Global variable naming"
    severity := .info
    area := .names
    target := .logic
    pattern :=
      "(?s)(?i:\\bVAR_GLOBAL\\b)(?:[^E]|E[^N]|EN[^D])*?(?m:^)\\s*([a-fh-zA-FH-Z_]\\w*|g[a-z0-9_]\\w*)\\s*:"
    title := "Global variable without g prefix"
    recommendation := "Prefix globals with g or G_."
    isDefault := false },
  { id := "SA0159"
    name := "Unit suffix"
    severity := .info
    area := .names
    target := .variable
    pattern := "^\\w*(Sec|Ms|Us|Ns|Mm|Cm|Km|Kg|Hz|Rpm|Deg|Rad)\\s*:"
    title := "Unit encoded in the name"
    recommendation := "Use the same unit suffixes throughout the project."
    isDefault := false }]

end PlcAudit.Review
