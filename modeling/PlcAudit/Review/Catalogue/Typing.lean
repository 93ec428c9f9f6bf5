import PlcAudit.Review.Catalogue.Basic

/-!
Rows about types: conversions, memory layout and the language standard.
-/

namespace PlcAudit.Review

/-- Conversions between types. -/
def conversionsRows : List Row := [
  { id := "SA0008"
    name := "Subrange type"
    severity := .warning
    area := .conversions
    target := .variable
    pattern := "\\(\\s*-?\\d+\\s*\\.\\.\\s*-?\\d+\\s*\\)"
    title := "Subrange type checked at runtime"
    recommendation := "Range-check values before assigning them to the subrange variable." },
  { id := "SA0019"
    name := "Implicit pointer conversion"
    severity := .warning
    area := .conversions
    target := .logic
    pattern := "(?i)POINTER\\s+TO\\s+\\w+.*:=.*POINTER\\s+TO"
    title := "Implicit conversion between pointer types"
    recommendation := "Convert explicitly and check that the target types match." },
  { id := "SA0020"
    name := "Possibly truncated value assigned to REAL"
    severity := .warning
    area := .conversions
    target := .logic
    pattern := "(?i)\\b(DINT|UDINT|LINT|ULINT)_TO_REAL\\s*\\("
    title := "Integer converted to REAL loses precision"
    recommendation := "Convert to LREAL, or make sure the value fits in 24 bits." },
  { id := "SA0024"
    name := "Untyped literal"
    severity := .info
    area := .conversions
    target := .logic
    pattern := ":=\\s*\\d\x7b3,\x7d\\s*;"
    title := "Large untyped literal"
    recommendation := "Write typed literals such as DINT#100000."
    isDefault := false },
  { id := "SA0027"
    name := "Unsafe type conversion"
    severity := .warning
    area := .conversions
    target := .logic
    pattern := "(?i)\\b(DINT_TO_INT|LINT_TO_DINT|INT_TO_SINT|DINT_TO_SINT|LREAL_TO_REAL)\\s*\\("
    title := "Narrowing conversion"
    recommendation := "Range-check the value before converting to the smaller type." },
  { id := "SA0080"
    name := "Implicit conversion"
    severity := .warning
    area := .conversions
    target := .logic
    pattern := "(?i):\\s*(U?S?D?L?INT|BYTE|WORD|DWORD)\\s*:=\\s*-?\\d+\\.\\d+"
    title := "Integer initialised with a REAL literal"
    recommendation := "Use an integer literal or convert explicitly." },
  { id := "SA0081"
    name := "Lossy conversion"
    severity := .warning
    area := .conversions
    target := .logic
    pattern :=
      "(?i)\\b(L?REAL_TO_U?[SDL]?INT|L?REAL_TO_(BYTE|WORD|DWORD)|TIME_TO_U?[SD]?INT)\\s*\\("
    title := "Conversion that drops the fraction or range"
    recommendation := "Round explicitly and range-check before converting." },
  { id := "SA0082"
    name := "Sign conversion"
    severity := .warning
    area := .conversions
    target := .logic
    pattern := "(?i)\\b(U(S|D|L)?INT_TO_(S|D|L)?INT|(S|D|L)?INT_TO_U(S|D|L)?INT)\\s*\\("
    title := "Conversion between signed and unsigned types"
    recommendation := "Check the sign and range before converting." },
  { id := "SA0120"
    name := "STRING/WSTRING mix"
    severity := .warning
    area := .conversions
    target := .logic
    pattern := "(?i)\\b(WSTRING_TO_STRING|STRING_TO_WSTRING)\\s*\\("
    title := "Conversion between STRING and WSTRING"
    recommendation := "Non-ASCII characters are lost in WSTRING_TO_STRING; keep one string type." },
  { id := "SA0123"
    name := "Generic conversion"
    severity := .warning
    area := .conversions
    target := .logic
    pattern := "(?i)\\b(ANY_TO_\\w+|TO_\\w+)\\s*\\("
    title := "Conversion with inferred source type"
    recommendation := "Use the explicit <SRC>_TO_<DST> function." },
  { id := "SA0136"
    name := "Pointer initialised in declaration"
    severity := .warning
    area := .conversions
    target := .logic
    pattern := "(?i):\\s*POINTER\\s+TO\\s+\\w+\\s*:=\\s*ADR\\s*\\("
    title := "ADR in a declaration"
    recommendation :=
      "Assign pointers in code; declaration-time addresses change after online change." }]

/-- Alignment and addresses. -/
def memoryLayoutRows : List Row := [
  { id := "SA0016"
    name := "Gaps in structures"
    severity := .info
    area := .memoryLayout
    target := .dataType
    pattern :=
      "(?is)\\b(BOOL|BYTE|SINT|USINT)\\s*;\\s*\\w+\\s*:\\s*(LREAL|LINT|ULINT|LWORD|REAL|DINT|UDINT|DWORD|TIME)\\b"
    title := "Small member followed by a wide one"
    recommendation := "Order members from widest to narrowest to avoid padding." },
  { id := "SA0087"
    name := "AT declaration"
    severity := .warning
    area := .memoryLayout
    target := .variable
    pattern := "(?i)\\bAT\\s+%"
    title := "Variable bound to a fixed address"
    recommendation := "Link the variable through the I/O mapping instead."
    isDefault := false },
  { id := "SA0130"
    name := "Fixed I/O address"
    severity := .warning
    area := .memoryLayout
    target := .logic
    pattern := "(?i)\\bAT\\s+%[IQM][XBWDL]?\\d"
    title := "Variable located at a fixed address"
    recommendation := "Use AT %I* / %Q* and link in the I/O configuration." },
  { id := "SA0166"
    name := "Memory alignment"
    severity := .info
    area := .memoryLayout
    target := .dataType
    pattern := "(?is)\\bBOOL\\s*;\\s*\\w+\\s*:\\s*L?REAL\\b"
    title := "REAL member after a BOOL"
    recommendation := "Place REAL members before BOOL members."
    isDefault := false }]

/-- What the language standard leaves out. -/
def standardRows : List Row := [
  { id := "SA0093"
    name := "Non-standard data type"
    severity := .info
    area := .standard
    target := .variable
    pattern := "(?i):\\s*(POINTER\\s+TO|REFERENCE\\s+TO|__XWORD|__UXINT|__XINT|PVOID)\\b"
    title := "Type outside IEC 61131-3"
    recommendation := "Isolate vendor types when portability matters."
    isDefault := false },
  { id := "SA0151"
    name := "PLCopen block interface"
    severity := .info
    area := .standard
    target := .logic
    pattern := "(?m)^\\s*Execute\\s*:\\s*BOOL\\b"
    title := "Execute input"
    recommendation := "Provide Done, Busy, Error and ErrorID outputs as PLCopen requires."
    isDefault := false },
  { id := "SA0152"
    name := "64-bit type"
    severity := .info
    area := .standard
    target := .variable
    pattern := "(?i):\\s*(LWORD|LINT|ULINT)\\b"
    title := "64-bit data type"
    recommendation := "Check the target supports 64-bit types."
    isDefault := false },
  { id := "SA0153"
    name := "Marker address"
    severity := .info
    area := .standard
    target := .logic
    pattern := "%M[XBWDL]?\\d+"
    title := "Marker memory address"
    recommendation := "Use symbolic variables instead of %M addresses."
    isDefault := false },
  { id := "SA0154"
    name := "Language compatibility"
    severity := .info
    area := .standard
    target := .logic
    pattern := "(?i)\\b(__ISVALIDREF|__QUERYINTERFACE|__QUERYPOINTER|__TRY|__CATCH)\\b"
    title := "Vendor extension outside IEC 61131-3"
    recommendation := "Isolate vendor extensions when portability matters."
    isDefault := false },
  { id := "SA0155"
    name := "VAR_CONFIG use"
    severity := .info
    area := .standard
    target := .logic
    pattern := "(?i)\\bVAR_CONFIG\\b"
    title := "VAR_CONFIG block"
    recommendation := "Keep instance-specific addresses in the I/O configuration."
    isDefault := false },
  { id := "SA0156"
    name := "Hand-written MAX/MIN"
    severity := .info
    area := .standard
    target := .logic
    pattern :=
      "(?is)\\bIF\\s+\\w+\\s*[<>]\\s*\\w+\\s+THEN\\s+\\w+\\s*:=\\s*\\w+\\s*;\\s*ELSE\\s+\\w+\\s*:=\\s*\\w+\\s*;\\s*END_IF"
    title := "IF/ELSE selecting the larger or smaller value"
    recommendation := "Use MAX, MIN or SEL." },
  { id := "SA0157"
    name := "Bit access notation"
    severity := .info
    area := .standard
    target := .logic
    pattern := "\\b[A-Za-z_]\\w*\\.\\d+\\b"
    title := "Bit access with dot notation"
    recommendation := "Dot bit access is a vendor extension; use masks for portable code."
    isDefault := false }]

end PlcAudit.Review
