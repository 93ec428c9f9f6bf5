import PlcAudit.Code.TypeText
import PlcAudit.Code.Tree
import PlcAudit.Fault
import PlcAudit.Flow.Fact

/-!
Data flow of a unit: where each variable is written and read, reads that some path reaches without
an assignment, calls, reachability, and dead regions. The records are made from the facts of the
structural pass one by one.
-/

namespace PlcAudit.Flow

open Code

/-- Writes and reads of a declared variable, by line. -/
structure DefUse where
  name : String
  scope : Scope
  dataType : String
  declaredLine : Nat
  constant : Bool
  definitions : List Nat := []
  uses : List Nat := []
  initializedAtDeclaration : Bool
  implicitDefault : Bool
  definedBeforeUse : Bool := true
  deriving DecidableEq, Repr

def DefUse.isInitialized (info : DefUse) : Bool :=
  info.initializedAtDeclaration || info.implicitDefault

structure DeadCode where
  kind : DeadKind
  file : String
  pouName : String
  startLine : Nat
  endLine : Nat
  description : String
  deriving DecidableEq, Repr

structure UninitializedRead where
  name : String
  line : Nat
  declaredLine : Nat
  deriving DecidableEq, Repr

/-- A call; of an instance, the callee is its type. -/
structure CallSite where
  callee : String
  line : Nat
  instanceName : Option String
  deriving DecidableEq, Repr

structure PouFlow where
  pouName : String
  file : String
  uses : Table String DefUse := .empty
  externalReads : Table String (List Nat) := .empty
  externalWrites : Table String (List Nat) := .empty
  calls : List CallSite := []
  controlFlow : Table Nat ControlFlow := .empty
  uninitializedReads : List UninitializedRead := []
  deadCode : List DeadCode := []

namespace PouFlow

def lookup? (flow : PouFlow) (name : String) : Option DefUse :=
  flow.uses.find? (Text.upper name)

def isReachable (flow : PouFlow) (stmt : Stmt Mark) : Bool :=
  (flow.controlFlow.find? stmt.tag.id).any (·.reachable)

end PouFlow

/-- Records under way: the flow so far, the variables that need an assignment before they are read,
and those already reported. -/
structure Record where
  flow : PouFlow
  tracked : Names := []
  reported : Names := []

/-- A variable has to be assigned before it is read. -/
def needsAssignment (strict : Bool) (block : VarBlock Mark) (decl : VarDecl Mark) : Bool :=
  block.scope.isLocal && decl.initial.isNone &&
    (strict || (!TypeText.hasImplicitDefault decl.dataType &&
      (decl.pointer || decl.reference || TypeText.isIndirection decl.dataType)))

namespace Record

def addLine (line : Nat) (lines : Option (List Nat)) : List Nat :=
  lines.getD [] ++ [line]

def declare (strict : Bool) (block : VarBlock Mark) (decl : VarDecl Mark) (record : Record) :
    Record :=
  let info : DefUse := {
    name := decl.name
    scope := block.scope
    dataType := decl.dataType
    declaredLine := decl.tag.line
    constant := block.constant
    initializedAtDeclaration := decl.initial.isSome
    implicitDefault := TypeText.hasImplicitDefault decl.dataType }
  { record with
    flow := { record.flow with
      uses := record.flow.uses.insert (Text.upper decl.name) info }
    tracked :=
      if needsAssignment strict block decl then record.tracked.insert decl.name
      else record.tracked }

def read (name : String) (line : Nat) (exposed : Bool) (record : Record) : Record :=
  let key := Text.upper name
  match record.flow.uses.find? key with
  | none =>
    { record with flow := { record.flow with
        externalReads := record.flow.externalReads.alter name (addLine line) } }
  | some info =>
    let flow := { record.flow with
      uses := record.flow.uses.modify key fun info =>
        { info with uses := info.uses ++ [line] } }
    if exposed && record.tracked.contains key && !record.reported.contains key then
      { record with
        flow := { flow with uninitializedReads := flow.uninitializedReads ++
          [{ name := info.name, line, declaredLine := info.declaredLine }] }
        reported := record.reported.insert name }
    else { record with flow }

/-- A unit assigns its result through its own name, which is no external write. -/
def write (name : String) (line : Nat) (record : Record) : Record :=
  let key := Text.upper name
  if record.flow.uses.contains key then
    { record with flow := { record.flow with
        uses := record.flow.uses.modify key fun info =>
          { info with definitions := info.definitions ++ [line] } } }
  else if key == Text.upper record.flow.pouName then record
  else
    { record with flow := { record.flow with
        externalWrites := record.flow.externalWrites.alter name (addLine line) } }

/-- Calling a declared instance uses it and goes to its type. -/
def call (name : String) (line : Nat) (record : Record) : Record :=
  let key := Text.upper name
  match (record.flow.uses.find? key).filter fun info => !info.dataType.isEmpty with
  | some info =>
    { record with flow := { record.flow with
        uses := record.flow.uses.modify key fun info =>
          { info with uses := info.uses ++ [line] }
        calls := record.flow.calls ++
          [{ callee := info.dataType, line, instanceName := some name }] } }
  | none =>
    { record with flow := { record.flow with
        calls := record.flow.calls ++ [{ callee := name, line, instanceName := none }] } }

def add (strict : Bool) (record : Record) : Fact → Record
  | .declare block decl => record.declare strict block decl
  | .read name line exposed => record.read name line exposed
  | .write name line => record.write name line
  | .call name line => record.call name line
  | .statement id info =>
    { record with flow := { record.flow with
        controlFlow := record.flow.controlFlow.insert id info } }
  | .dead kind startLine endLine description =>
    { record with flow := { record.flow with
        deadCode := record.flow.deadCode ++ [{
          kind, file := record.flow.file, pouName := record.flow.pouName
          startLine, endLine, description }] } }

end Record

/-- By line numbers alone: a local without an initial value is first written above its first
read. -/
def DefUse.finished (info : DefUse) : DefUse :=
  { info with
    definedBeforeUse := !info.scope.isLocal || info.isInitialized ||
      match info.definitions.min?, info.uses.min? with
      | _, none => true
      | some firstWrite, some firstRead => firstWrite < firstRead
      | none, some _ => false }

/-- Data flow of a unit whose literals can all be read. -/
def pouFlow (strict : Bool) (file : String) (pou : Pou Mark) : PouFlow :=
  let start : Record := { flow := { pouName := pou.name, file } }
  let flow := ((pouFacts pou).foldl (Record.add strict) start).flow
  { flow with uses := flow.uses.mapValues DefUse.finished }

mutual

/-- Some condition that is folded holds a literal whose base cannot be read. -/
def stmtHasBadBase : Stmt Mark → Bool
  | .cond _ condition thenBody elsifs elseBody =>
    hasBadBase condition || blockHasBadBase thenBody || clausesHaveBadBase elsifs ||
      elseHasBadBase elseBody
  | .select _ _ elements elseBody => elementsHaveBadBase elements || elseHasBadBase elseBody
  | .forLoop _ _ _ _ _ body => blockHasBadBase body
  | .whileLoop _ condition body => hasBadBase condition || blockHasBadBase body
  | .repeatLoop _ body _ => blockHasBadBase body
  | .assign .. | .exit _ | .return_ _ | .call .. => false

def blockHasBadBase : List (Stmt Mark) → Bool
  | [] => false
  | stmt :: rest => stmtHasBadBase stmt || blockHasBadBase rest

def clausesHaveBadBase : List (Clause Mark) → Bool
  | [] => false
  | .mk _ condition body :: rest =>
    hasBadBase condition || blockHasBadBase body || clausesHaveBadBase rest

def elementsHaveBadBase : List (Element Mark) → Bool
  | [] => false
  | .mk _ body :: rest => blockHasBadBase body || elementsHaveBadBase rest

def elseHasBadBase : Option (List (Stmt Mark)) → Bool
  | none => false
  | some body => blockHasBadBase body

end

/-- Folding the constants or conditions of a unit meets a literal whose base cannot be read. -/
def pouHasBadBase (pou : Pou Mark) : Bool :=
  (pou.decls.any fun (block, decl) => block.constant && decl.initial.any hasBadBase) ||
    blockHasBadBase pou.body

/-- Data flow of a unit. -/
def analyzePou (strict : Bool) (file : String) (pou : Pou Mark) : Except Fault PouFlow :=
  if pouHasBadBase pou then .error .badBase else .ok (pouFlow strict file pou)

/-- Data flow of every unit of a file. -/
def analyzeTree (strict : Bool) (tree : Tree) : Except Fault (List PouFlow) :=
  tree.pous.mapM (analyzePou strict tree.file)

end PlcAudit.Flow
