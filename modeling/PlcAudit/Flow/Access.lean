import PlcAudit.Code.Basic

/-!
Reads, writes and calls of expressions and simple statements, in order of evaluation.
-/

namespace PlcAudit.Flow

open Code

inductive Access where
  | read (name : String) (line : Nat)
  | write (name : String) (line : Nat)
  | call (name : String) (line : Nat)
  deriving DecidableEq, Repr

mutual

/-- Accesses of an expression. A variable is read before its indices, and a call is noted before
its arguments. -/
def exprAccesses : Expr Mark → List Access
  | .binary _ _ left right => exprAccesses left ++ exprAccesses right
  | .unary _ _ operand => exprAccesses operand
  | .literal .. => []
  | .variable tag name _ indices _ => .read name tag.line :: indexAccesses indices
  | .call tag name args => .call name tag.line :: argAccesses args

def indexAccesses : List (Expr Mark) → List Access
  | [] => []
  | expr :: rest => exprAccesses expr ++ indexAccesses rest

/-- Arguments in order. A variable bound to an output is written; writing through a pointer reads
the pointer. -/
def argAccesses : List (Arg Mark) → List Access
  | [] => []
  | .mk _ (.variable tag name _ indices dereference) true :: rest =>
    indexAccesses indices ++ (if dereference then [.read name tag.line] else []) ++
      .write name tag.line :: argAccesses rest
  | .mk _ value _ :: rest => exprAccesses value ++ argAccesses rest

end

/-- A write: first its indices, then the pointer it goes through, then the write itself. -/
def targetAccesses (target : Target Mark) : List Access :=
  indexAccesses target.indices ++
    (if target.dereference then [.read target.name target.tag.line] else []) ++
    [.write target.name target.tag.line]

def optionAccesses : Option (Expr Mark) → List Access
  | none => []
  | some expr => exprAccesses expr

end PlcAudit.Flow
