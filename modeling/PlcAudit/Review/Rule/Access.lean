import PlcAudit.Code.Literal
import PlcAudit.Code.TypeText
import PlcAudit.Review.Rule.Basic
import PlcAudit.Text.Pattern.Matcher

/-!
Rules about access to memory: array indices without a range test, pointers without a null test,
and addresses written into the code.
-/

namespace PlcAudit.Review

open Code

def arrayAccessPattern : Pattern.Program :=
  Pattern.compile "(\\w+)\\[([^\\]]+)\\]"

def rangeTestPattern : Pattern.Program :=
  Pattern.compile "(?i)IF\\s+(\\w+)\\s*(>=|>)\\s*\\d+\\s*AND\\s*(\\w+)\\s*(<=|<)\\s*\\d+"

/-- The code tests an index against a lower and an upper limit. -/
def isRangeTested (code : List Char) (index : String) : Bool :=
  (rangeTestPattern.findAll code).any fun found =>
    Text.sameName ((found.group? code 1).getD "") index &&
      Text.sameName ((found.group? code 3).getD "") index

/-- An access to an array element in code: the position, its text, the array and the index. -/
structure ArrayAccess where
  position : Nat
  text : String
  array : String
  index : String

def arrayAccesses (code : List Char) : List ArrayAccess :=
  (arrayAccessPattern.findAll code).filterMap fun found => do
    return {
      position := found.start
      text := found.text code
      array := ← found.group? code 1
      index := Text.trim (← found.group? code 2) }

/-- The index can leave the array: it is no number, no range of a declaration, and not tested. A
computed index is not excused by a test of one of its parts. -/
def ArrayAccess.isUnchecked (code : List Char) (access : ArrayAccess) : Bool :=
  let index := access.index
  let computed := index.toList.contains '+' || index.toList.contains '-'
  !Text.sameName access.array "ARRAY" && !Text.contains index ".." &&
    (signed? 10 index.toList).isNone && (computed || !isRangeTested code index)

private def distinctAccesses (seen : List String) : List ArrayAccess → List ArrayAccess
  | [] => []
  | access :: rest =>
    if seen.contains access.text then distinctAccesses seen rest
    else access :: distinctAccesses (access.text :: seen) rest

/-- Array accesses through an index that is not tested. -/
def uncheckedIndex : Rule where
  id := "QA003"
  name := "Array bounds check missing"
  description :=
    "Detects array indexing by variables or expressions without a preceding range check"
  severity := .critical
  onLogic change :=
    let code := (change.codeToCheck?.getD "").toList
    (distinctAccesses [] ((arrayAccesses code).filter (·.isUnchecked code))).map fun access =>
      let index := access.index
      { category := Category.memorySafety
        title := "Array accessed without bounds check"
        line := change.lineAt access.position
        description :=
          s!"{access.array} is accessed with index '{index}' that is never range-checked"
        whyDangerous := "An out-of-range index writes into neighbouring memory or raises a page " ++
          "fault that stops the PLC task."
        recommendation :=
          s!"Guard the access: IF {index} >= <lower> AND {index} <= <upper> THEN ... END_IF"
        examples := [
          s!"IF {index} >= 0 AND {index} <= 9 THEN",
          s!"    value := {access.array}[{index}];",
          "END_IF"]
        newSnippet := quoted access.text 80 }

def dereferencePattern : Pattern.Program :=
  Pattern.compile "(\\w+)\\^"

def nullTestPattern : Pattern.Program :=
  Pattern.compile "(?i)IF\\s+(\\w+)\\s*(<>|<\\s*>)\\s*(NULL|0|16#0)"

/-- The code tests a pointer before its use. -/
def isNullTested (code : String) (pointer : String) : Bool :=
  let upper := Text.upper code
  (Text.contains upper "__ISVALIDREF" && Text.contains upper (Text.upper pointer)) ||
    (nullTestPattern.findAll code.toList).any fun found =>
      (found.group? code.toList 1).any fun tested => Text.sameName tested pointer

/-- The pointers that a code dereferences, each at its first use. Names that differ in case are the
same pointer. -/
def dereferences (code : List Char) : List (Nat × String × String) :=
  let all := (dereferencePattern.findAll code).filterMap fun found => do
    return (found.start, found.text code, ← found.group? code 1)
  all.foldl
    (fun kept (position, text, name) =>
      if kept.any fun (_, _, other) => Text.sameName other name then kept
      else kept ++ [(position, text, name)])
    []

/-- The finding about a pointer that is used without a null test. -/
def pointerFinding (change : LogicChange) : Nat × String × String → Finding
  | (position, text, name) =>
    { category := Category.memorySafety
      title := "Pointer used without null check"
      line := change.lineAt position
      description := s!"{name}^ is dereferenced without checking {name} <> 0"
      whyDangerous := "Dereferencing a null or dangling pointer raises an access violation " ++
        "and halts the runtime."
      recommendation := s!"Wrap the access in IF {name} <> 0 THEN ... END_IF or use " ++
        "__ISVALIDREF for references."
      examples := [s!"IF {name} <> 0 THEN", s!"    value := {name}^;", "END_IF"]
      newSnippet := quoted text 80 }

/-- Pointers used without a null test, and fields that become pointers. -/
def uncheckedPointer : Rule where
  id := "QA004"
  name := "Null pointer check missing"
  description := "Detects pointer dereferences that are not guarded by a null or validity check"
  severity := .critical
  onLogic change :=
    let code := change.codeToCheck?.getD ""
    ((dereferences code.toList).filter fun (_, _, name) => !isNullTested code name).map
      (pointerFinding change)
  onType change :=
    (change.fields.filter fun field =>
      field.edit.addsCode && field.newType.any TypeText.isPointer).map fun field =>
        let type := field.newType.getD ""
        { category := Category.memorySafety
          title := "Field changed to pointer or reference type"
          line := change.line
          severity := some .warning
          description := s!"{change.name}.{field.name} is now {type}"
          whyDangerous :=
            "Every consumer of this field now dereferences memory that may not be valid."
          recommendation := "Audit every access to the field and add null or __ISVALIDREF checks."
          oldSnippet := field.oldType.getD ""
          newSnippet := type }

def addressPattern : Pattern.Program :=
  Pattern.compile "(?i)AT\\s+%[IQM][XBWDL]?\\d+\\.\\d+"

/-- Variables bound to an address in the code. -/
def fixedAddress : Rule where
  id := "QA014"
  name := "Hard-coded I/O address"
  description := "Detects AT %I/%Q/%M bindings written directly in code"
  severity := .warning
  onLogic change :=
    let code := (change.codeToCheck?.getD "").toList
    (addressPattern.findAll code).map fun found =>
      let address := found.text code
      { category := Category.architecture
        title := "Hard-coded I/O address"
        line := change.lineAt found.start
        description := s!"Direct address binding '{address}'"
        whyDangerous := "Hardware changes require code changes, and duplicate bindings to the " ++
          "same address go unnoticed."
        recommendation :=
          "Declare the signal without an address and link it through the I/O mapping."
        newSnippet := address }

end PlcAudit.Review
