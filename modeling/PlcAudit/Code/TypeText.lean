import PlcAudit.Code.Basic
import PlcAudit.Text.Line

/-!
Reading the text of a declared type: the element type of arrays, storage widths, pointers and
references, and which types start out with a defined value.
-/

namespace PlcAudit.Code.TypeText

/-- The type without blanks at its ends and in upper case; of an array, its element type. -/
def base (text : String) : String :=
  let upper := Text.upper (Text.trim text)
  match Text.cutLast? " OF ".toList upper.toList with
  | some (_, element) =>
    if Text.hasStart upper "ARRAY" then Text.trim (String.ofList element) else upper
  | none => upper

/-- Storage width of the elementary numeric types. -/
def bits? (text : String) : Option Nat :=
  match base text with
  | "SINT" | "USINT" | "BYTE" => some 8
  | "INT" | "UINT" | "WORD" => some 16
  | "DINT" | "UDINT" | "REAL" | "DWORD" => some 32
  | "LINT" | "ULINT" | "LREAL" | "LWORD" => some 64
  | _ => none

def isReal (text : String) : Bool :=
  base text == "REAL" || base text == "LREAL"

/-- Pointer and reference types by their first word. -/
def isPointer (text : String) : Bool :=
  let upper := Text.upper (Text.trim text)
  Text.hasStart upper "POINTER" || Text.hasStart upper "REFERENCE" || Text.hasStart upper "REF_TO"

/-- Pointer and reference types by the whole wrapper. -/
def isIndirection (text : String) : Bool :=
  let upper := Text.upper (Text.trim text)
  Text.hasStart upper "POINTER TO" || Text.hasStart upper "REFERENCE TO" ||
    Text.hasStart upper "REF_TO"

/-- Elementary types whose variables start out as zero. -/
def zeroInitialised : List String :=
  ["BOOL", "BYTE", "WORD", "DWORD", "LWORD", "SINT", "INT", "DINT", "LINT", "USINT", "UINT",
    "UDINT", "ULINT", "REAL", "LREAL"]

/-- Variables of the type, or of an array of it, start out with a defined value. -/
def hasImplicitDefault (text : String) : Bool :=
  zeroInitialised.contains (base text)

end PlcAudit.Code.TypeText
