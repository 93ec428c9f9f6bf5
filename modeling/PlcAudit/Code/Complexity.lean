import PlcAudit.Code.Basic

/-!
Complexity of a unit, counted in one walk. A decision is an IF, an ELSIF, a CASE element or a loop;
it weighs one more for every control structure around it in the cognitive measure.
-/

namespace PlcAudit.Code

/-- Counters of a walk through a unit. -/
structure Meter where
  cyclomatic : Nat := 1
  cognitive : Nat := 0
  /-- Deepest scope so far. -/
  deepest : Nat := 0
  /-- Scopes that are open. -/
  depth : Nat := 0
  decisions : Nat := 0
  loops : Nat := 0
  logical : Nat := 0
  returns : Nat := 0
  statements : Nat := 0
  deriving DecidableEq, Repr

namespace Meter

def enter (meter : Meter) : Meter :=
  { meter with depth := meter.depth + 1, deepest := max meter.deepest (meter.depth + 1) }

def leave (meter : Meter) : Meter :=
  { meter with depth := meter.depth - 1 }

/-- Counts decisions, which weigh by the scopes that are open. -/
def countDecisions (meter : Meter) (count : Nat) : Meter :=
  { meter with
    cyclomatic := meter.cyclomatic + count
    decisions := meter.decisions + count
    cognitive := meter.cognitive + count * (1 + meter.depth) }

def countStatement (meter : Meter) : Meter :=
  { meter with statements := meter.statements + 1 }

/-- A loop is a decision. -/
def countLoop (meter : Meter) : Meter :=
  { meter with loops := meter.loops + 1 }.countDecisions 1

def countReturn (meter : Meter) : Meter :=
  { meter with returns := meter.returns + 1 }

def countOperator (meter : Meter) (op : BinaryOp) : Meter :=
  if op.isLogical then
    { meter with
      logical := meter.logical + 1
      cyclomatic := meter.cyclomatic + 1
      cognitive := meter.cognitive + 1 }
  else meter

end Meter

mutual

def Expr.measure (meter : Meter) : Expr Mark → Meter
  | .binary _ op left right => right.measure (left.measure (meter.countOperator op))
  | .unary _ _ operand => operand.measure meter
  | .literal .. => meter
  | .variable _ _ _ indices _ => Expr.measureAll meter indices
  | .call _ _ args => Arg.measureAll meter args

def Expr.measureAll (meter : Meter) : List (Expr Mark) → Meter
  | [] => meter
  | expr :: rest => Expr.measureAll (expr.measure meter) rest

/-- A variable bound to an output is met for its indices, as any other. -/
def Arg.measureAll (meter : Meter) : List (Arg Mark) → Meter
  | [] => meter
  | .mk _ value _ :: rest => Arg.measureAll (value.measure meter) rest

end

mutual

/-- The counters behind a statement. The walk meets neither the header of a FOR loop nor the labels
of a CASE statement. -/
def Stmt.measure (meter : Meter) : Stmt Mark → Meter
  | .assign _ target value =>
    Expr.measureAll (value.measure meter.countStatement) target.indices
  | .cond _ condition thenBody elsifs elseBody =>
    let meter := condition.measure (meter.countStatement.countDecisions (1 + elsifs.length))
    let meter := (Stmt.measureAll meter.enter thenBody).leave
    Stmt.measureOption (Clause.measureAll meter elsifs) elseBody
  | .select _ selector elements elseBody =>
    let meter := selector.measure (meter.countStatement.countDecisions elements.length)
    Stmt.measureOption (Element.measureAll meter elements) elseBody
  | .forLoop _ _ _ _ _ body =>
    (Stmt.measureAll meter.countStatement.countLoop.enter body).leave
  | .whileLoop _ condition body =>
    let meter := condition.measure meter.countStatement.countLoop
    (Stmt.measureAll meter.enter body).leave
  | .repeatLoop _ body until_ =>
    until_.measure (Stmt.measureAll meter.countStatement.countLoop.enter body).leave
  | .exit _ => meter.countStatement
  | .return_ _ => meter.countStatement.countReturn
  | .call _ _ args => Arg.measureAll meter.countStatement args

def Stmt.measureAll (meter : Meter) : List (Stmt Mark) → Meter
  | [] => meter
  | stmt :: rest => Stmt.measureAll (stmt.measure meter) rest

def Stmt.measureOption (meter : Meter) : Option (List (Stmt Mark)) → Meter
  | none => meter
  | some body => (Stmt.measureAll meter.enter body).leave

def Clause.measureAll (meter : Meter) : List (Clause Mark) → Meter
  | [] => meter
  | .mk _ condition body :: rest =>
    Clause.measureAll (Stmt.measureAll (condition.measure meter).enter body).leave rest

def Element.measureAll (meter : Meter) : List (Element Mark) → Meter
  | [] => meter
  | .mk _ body :: rest =>
    Element.measureAll (Stmt.measureAll meter.enter body).leave rest

end

def VarDecl.measure (meter : Meter) (decl : VarDecl Mark) : Meter :=
  (decl.initial.map (Expr.measure meter)).getD meter

def VarBlock.measure (meter : Meter) (block : VarBlock Mark) : Meter :=
  block.decls.foldl VarDecl.measure meter

/-- Initial values come before the body. -/
def Pou.measure (meter : Meter) (pou : Pou Mark) : Meter :=
  Stmt.measureAll (pou.blocks.foldl VarBlock.measure meter) pou.body

/-- Complexity measures of a unit. -/
structure Complexity where
  pouName : String := ""
  cyclomatic : Nat := 1
  cognitive : Nat := 0
  nestingDepth : Nat := 0
  decisionPoints : Nat := 0
  loopCount : Nat := 0
  logicalOperators : Nat := 0
  parameterCount : Nat := 0
  returnPoints : Nat := 0
  statementCount : Nat := 0
  lineCount : Nat := 0
  deriving DecidableEq, Repr

def Meter.complexity (meter : Meter) : Complexity where
  cyclomatic := meter.cyclomatic
  cognitive := meter.cognitive
  nestingDepth := meter.deepest
  decisionPoints := meter.decisions
  loopCount := meter.loops
  logicalOperators := meter.logical
  returnPoints := meter.returns
  statementCount := meter.statements

def Pou.complexity (pou : Pou Mark) : Complexity :=
  { (pou.measure {}).complexity with
    pouName := pou.name
    parameterCount := pou.parameterCount
    lineCount := pou.tag.span.endLine - pou.tag.span.startLine + 1 }

end PlcAudit.Code
