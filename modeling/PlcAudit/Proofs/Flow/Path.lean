import PlcAudit.Flow.Analysis

/-!
Structural paths: what a run of a unit may do when nothing but constant conditions is known. A
condition that folds goes its way, any other goes either way, and loops turn any number of times.
-/

namespace PlcAudit.Flow

open Code

/-- What happens on a path: a statement begins, or a name is accessed. -/
inductive Event where
  | enter (id : Nat)
  | access (access : Access)
  deriving DecidableEq

/-- How a path leaves a piece of code: it goes on behind it, it leaves the loop around it, or it
ends the run. -/
inductive Ending where
  | falls | exits | returns
  deriving DecidableEq

/-- Accesses as events, in order. -/
def accessed (accesses : List Access) : List Event := accesses.map .access

/-- What a path can lead through. -/
inductive Piece where
  | stmt (stmt : Stmt Mark)
  | block (body : List (Stmt Mark))
  /-- The ELSIF clauses that are left, and ELSE. -/
  | clauses (elsifs : List (Clause Mark)) (elseBody : Option (List (Stmt Mark)))
  /-- Any number of turns of a loop, each followed by the accesses of its condition. -/
  | rounds (condition : List Access) (body : List (Stmt Mark))

/-- The structural paths through a piece of code, with their events and their ending. Labels of CASE
are not evaluated. -/
inductive Path (constants : Constants) : Piece → List Event → Ending → Prop where
  | assign : Path constants (.stmt (.assign tag target value))
      (accessed (exprAccesses value ++ targetAccesses target)) .falls
  | call : Path constants (.stmt (.call tag name args))
      (accessed (.call name tag.line :: argAccesses args)) .falls
  | exit : Path constants (.stmt (.exit tag)) [] .exits
  | return_ : Path constants (.stmt (.return_ tag)) [] .returns
  | thenBranch (open_ : foldCondition constants condition ≠ some false)
      (inside : Path constants (.block thenBody) trace ending) :
      Path constants (.stmt (.cond tag condition thenBody elsifs elseBody))
        (accessed (exprAccesses condition) ++ trace) ending
  | pastThen (open_ : foldCondition constants condition ≠ some true)
      (inside : Path constants (.clauses elsifs elseBody) trace ending) :
      Path constants (.stmt (.cond tag condition thenBody elsifs elseBody))
        (accessed (exprAccesses condition) ++ trace) ending
  | element (member : .mk labels body ∈ elements)
      (inside : Path constants (.block body) trace ending) :
      Path constants (.stmt (.select tag selector elements elseBody))
        (accessed (exprAccesses selector) ++ trace) ending
  | noElement (inside : Path constants (.clauses [] elseBody) trace ending) :
      Path constants (.stmt (.select tag selector elements elseBody))
        (accessed (exprAccesses selector) ++ trace) ending
  | forLoop (inside : Path constants (.rounds [] body) trace ending) :
      Path constants (.stmt (.forLoop tag counter start stop step body))
        (accessed (exprAccesses start ++ exprAccesses stop ++ optionAccesses step ++
          targetAccesses counter) ++ trace) ending
  | whileNever (closed : foldCondition constants condition = some false) :
      Path constants (.stmt (.whileLoop tag condition body))
        (accessed (exprAccesses condition)) .falls
  | whileLoop (open_ : foldCondition constants condition ≠ some false)
      (inside : Path constants (.rounds (exprAccesses condition) body) trace ending) :
      Path constants (.stmt (.whileLoop tag condition body))
        (accessed (exprAccesses condition) ++ trace) ending
  | repeatLoop (first : Path constants (.block body) trace .falls)
      (more : Path constants (.rounds (exprAccesses until_) body) later ending) :
      Path constants (.stmt (.repeatLoop tag body until_))
        (trace ++ accessed (exprAccesses until_) ++ later) ending
  | repeatExit (first : Path constants (.block body) trace .exits) :
      Path constants (.stmt (.repeatLoop tag body until_)) trace .falls
  | repeatReturn (first : Path constants (.block body) trace .returns) :
      Path constants (.stmt (.repeatLoop tag body until_)) trace .returns
  | done : Path constants (.block []) [] .falls
  | next (head : Path constants (.stmt stmt) trace .falls)
      (tail : Path constants (.block rest) later ending) :
      Path constants (.block (stmt :: rest)) (.enter stmt.tag.id :: trace ++ later) ending
  | stop (head : Path constants (.stmt stmt) trace ending) (leaves : ending ≠ .falls) :
      Path constants (.block (stmt :: rest)) (.enter stmt.tag.id :: trace) ending
  | clause (open_ : foldCondition constants condition ≠ some false)
      (inside : Path constants (.block body) trace ending) :
      Path constants (.clauses (.mk span condition body :: rest) elseBody)
        (accessed (exprAccesses condition) ++ trace) ending
  | pastClause (open_ : foldCondition constants condition ≠ some true)
      (inside : Path constants (.clauses rest elseBody) trace ending) :
      Path constants (.clauses (.mk span condition body :: rest) elseBody)
        (accessed (exprAccesses condition) ++ trace) ending
  | elseBranch (inside : Path constants (.block body) trace ending) :
      Path constants (.clauses [] (some body)) trace ending
  | past : Path constants (.clauses [] none) [] .falls
  | enough : Path constants (.rounds condition body) [] .falls
  | round (inside : Path constants (.block body) trace .falls)
      (more : Path constants (.rounds condition body) later ending) :
      Path constants (.rounds condition body) (trace ++ accessed condition ++ later) ending
  | roundExit (inside : Path constants (.block body) trace .exits) :
      Path constants (.rounds condition body) trace .falls
  | roundReturn (inside : Path constants (.block body) trace .returns) :
      Path constants (.rounds condition body) trace .returns

/-- The accesses of the initial values of declarations, in order. -/
def initialAccesses (decls : List (VarBlock Mark × VarDecl Mark)) : List Access :=
  decls.flatMap fun (_, decl) => optionAccesses decl.initial

/-- A structural path of a unit: its initial values in order, then its body. EXIT outside every loop
ends the run, as RETURN does. -/
def PouPath (pou : Pou Mark) (trace : List Event) : Prop :=
  ∃ inside ending, Path (declarations pou).constants (.block pou.body) inside ending ∧
    trace = accessed (initialAccesses pou.decls) ++ inside

mutual

/-- A statement and all statements inside it, each before its parts. -/
def stmtParts : Stmt Mark → List (Stmt Mark)
  | .cond tag condition thenBody elsifs elseBody =>
    .cond tag condition thenBody elsifs elseBody ::
      (blockParts thenBody ++ clauseParts elsifs ++ elseParts elseBody)
  | .select tag selector elements elseBody =>
    .select tag selector elements elseBody :: (elementParts elements ++ elseParts elseBody)
  | .forLoop tag counter start stop step body =>
    .forLoop tag counter start stop step body :: blockParts body
  | .whileLoop tag condition body => .whileLoop tag condition body :: blockParts body
  | .repeatLoop tag body until_ => .repeatLoop tag body until_ :: blockParts body
  | .assign tag target value => [.assign tag target value]
  | .exit tag => [.exit tag]
  | .return_ tag => [.return_ tag]
  | .call tag name args => [.call tag name args]

/-- All statements of a block, at every depth. -/
def blockParts : List (Stmt Mark) → List (Stmt Mark)
  | [] => []
  | stmt :: rest => stmtParts stmt ++ blockParts rest

def clauseParts : List (Clause Mark) → List (Stmt Mark)
  | [] => []
  | .mk _ _ body :: rest => blockParts body ++ clauseParts rest

def elementParts : List (Element Mark) → List (Stmt Mark)
  | [] => []
  | .mk _ body :: rest => blockParts body ++ elementParts rest

def elseParts : Option (List (Stmt Mark)) → List (Stmt Mark)
  | none => []
  | some body => blockParts body

end

end PlcAudit.Flow
