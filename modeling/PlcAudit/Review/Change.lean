import PlcAudit.Code.Basic
import PlcAudit.Text.Line

/-!
What a reviewed change did: to declared variables, to code and to data types. A change set holds
the changes of one review.
-/

namespace PlcAudit.Review

open Code

/-- What happened to a declared thing or a piece of code. -/
inductive Edit where
  | added | removed | modified | moved
  deriving DecidableEq, Inhabited, Repr

namespace Edit

def all : List Edit := [.added, .removed, .modified, .moved]

def name : Edit → String
  | .added => "Added"
  | .removed => "Removed"
  | .modified => "Modified"
  | .moved => "Moved"

/-- There is something new to look at. -/
def addsCode : Edit → Bool
  | .added | .modified => true
  | _ => false

end Edit

structure VariableChange where
  edit : Edit := .added
  name : String
  file : String
  line : Nat
  scope : Scope := .local_
  oldType : Option String := none
  newType : Option String := none
  oldInitial : Option String := none
  newInitial : Option String := none
  deriving DecidableEq, Inhabited, Repr

/-- The type on the side of the change that still exists. -/
def VariableChange.currentType? (change : VariableChange) : Option String :=
  if change.edit == .removed then change.oldType else change.newType <|> change.oldType

/-- A change of the code between two lines of a file. -/
structure LogicChange where
  edit : Edit := .added
  name : String
  file : String
  firstLine : Nat
  lastLine : Nat
  oldCode : Option String := none
  newCode : Option String := none
  summary : String := ""
  deriving DecidableEq, Inhabited, Repr

/-- Number of lines of a text that may be missing. -/
def lineCount (code : Option String) : Nat :=
  (code.map fun text => (Text.lines text).length).getD 0

/-- Line feeds among the first `count` bytes of the encoded text. -/
def lineFeedsInBytes : List Char → Nat → Nat
  | [], _ => 0
  | c :: rest, count =>
    if count == 0 then 0
    else (if c == '\n' then 1 else 0) + lineFeedsInBytes rest (count - c.utf8Size)

namespace LogicChange

/-- The change with its last line taken from the number of lines of the new code. -/
def spanning (change : LogicChange) : LogicChange :=
  { change with lastLine := change.firstLine + (lineCount change.newCode - 1) }

/-- The code that rules look at: the new code of additions and edits. -/
def codeToCheck? (change : LogicChange) : Option String :=
  if change.edit.addsCode then change.newCode else none

/-- Lines of the longer side of the change. -/
def changedLines (change : LogicChange) : Nat :=
  max (lineCount change.oldCode) (lineCount change.newCode)

/-- Line in the file of the character at a position of the new code. -/
def lineAt (change : LogicChange) (position : Nat) : Nat :=
  change.firstLine + Text.lineFeeds (change.newCode.getD "").toList position

/-- Line in the file of a byte of the encoded new code; behind its end, the line of its end. -/
def lineAtByte (change : LogicChange) (offset : Nat) : Nat :=
  change.firstLine + lineFeedsInBytes (change.newCode.getD "").toList offset

end LogicChange

structure FieldChange where
  edit : Edit := .added
  name : String
  oldType : Option String := none
  newType : Option String := none
  deriving DecidableEq, Inhabited, Repr

/-- A change of a declared data type. -/
structure TypeChange where
  edit : Edit := .added
  name : String
  kind : TypeKind := .struct
  file : String
  line : Nat
  oldDefinition : Option String := none
  newDefinition : Option String := none
  fields : List FieldChange := []
  deriving DecidableEq, Inhabited, Repr

/-- The changes of one review. -/
structure ChangeSet where
  declarations : List VariableChange := []
  logic : List LogicChange := []
  types : List TypeChange := []
  deriving DecidableEq, Inhabited, Repr

namespace ChangeSet

def size (changes : ChangeSet) : Nat :=
  changes.declarations.length + changes.logic.length + changes.types.length

def isEmpty (changes : ChangeSet) : Bool :=
  changes.size == 0

end ChangeSet

/-- What a check was looking at. -/
inductive Subject where
  | variable | logic | dataType | changeSet
  deriving DecidableEq, Inhabited, Repr

namespace Subject

def all : List Subject := [.variable, .logic, .dataType, .changeSet]

def name : Subject → String
  | .variable => "Variable"
  | .logic => "Logic"
  | .dataType => "DataType"
  | .changeSet => "ChangeSet"

end Subject

end PlcAudit.Review
