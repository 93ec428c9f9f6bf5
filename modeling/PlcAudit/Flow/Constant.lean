import PlcAudit.Code.Literal
import PlcAudit.Data.Table

/-!
Folding of constant expressions. Integers have 64 bits, and a result that does not fit is no
result; AND and OR are also decided by one operand that decides them alone.
-/

namespace PlcAudit.Flow

open Code

/-- The value of a constant expression. -/
inductive Value where
  | bool (value : Bool)
  | int (value : Int64)
  deriving DecidableEq

def Value.bool? : Value → Option Bool
  | .bool value => some value
  | .int _ => none

/-- Known constants by upper-cased name. -/
abbrev Constants := Table String Value

/-- Quotient toward zero. -/
def quotient? (left right : Int64) : Option Int64 :=
  if right = 0 then none else narrow? (left.toInt.tdiv right.toInt)

/-- Remainder of the quotient toward zero. It exists only where the quotient does. -/
def remainder? (left right : Int64) : Option Int64 :=
  (quotient? left right).bind fun _ => narrow? (left.toInt.tmod right.toInt)

def foldInts (op : BinaryOp) (left right : Int64) : Option Value :=
  match op with
  | .add => (narrow? (left.toInt + right.toInt)).map .int
  | .subtract => (narrow? (left.toInt - right.toInt)).map .int
  | .multiply => (narrow? (left.toInt * right.toInt)).map .int
  | .divide => (quotient? left right).map .int
  | .modulo => (remainder? left right).map .int
  | .equal => some (.bool (left = right))
  | .notEqual => some (.bool (left ≠ right))
  | .less => some (.bool (left < right))
  | .lessEqual => some (.bool (left ≤ right))
  | .greater => some (.bool (right < left))
  | .greaterEqual => some (.bool (right ≤ left))
  | .and => some (.int (left &&& right))
  | .or => some (.int (left ||| right))
  | .xor => some (.int (left ^^^ right))

def foldBools (op : BinaryOp) (left right : Bool) : Option Value :=
  match op with
  | .and => some (.bool (left && right))
  | .or => some (.bool (left || right))
  | .xor | .notEqual => some (.bool (left != right))
  | .equal => some (.bool (left == right))
  | _ => none

/-- FALSE decides AND and TRUE decides OR, whatever the other operand is. -/
def decidedBy (op : BinaryOp) (left right : Option Value) : Option Value :=
  match op with
  | .and =>
    if left = some (.bool false) ∨ right = some (.bool false) then some (.bool false) else none
  | .or =>
    if left = some (.bool true) ∨ right = some (.bool true) then some (.bool true) else none
  | _ => none

def foldBinary (op : BinaryOp) (left right : Option Value) : Option Value :=
  match decidedBy op left right with
  | some value => some value
  | none =>
    match left, right with
    | some (.int left), some (.int right) => foldInts op left right
    | some (.bool left), some (.bool right) => foldBools op left right
    | _, _ => none

def foldUnary (op : UnaryOp) (operand : Option Value) : Option Value :=
  match op, operand with
  | .not, some (.bool value) => some (.bool !value)
  | .not, some (.int value) => some (.int (~~~value))
  | .minus, some (.int value) => (narrow? (-value.toInt)).map .int
  | _, _ => none

def foldLiteral (kind : LiteralKind) (text : String) : Option Value :=
  match kind.bool? text with
  | some value => some (.bool value)
  | none => (kind.int? text).map .int

/-- The value of an expression of literals and constants. Fields, elements, dereferenced variables
and calls have none. -/
def foldExpr {α : Type} (constants : Constants) : Expr α → Option Value
  | .binary _ op left right => foldBinary op (foldExpr constants left) (foldExpr constants right)
  | .unary _ op operand => foldUnary op (foldExpr constants operand)
  | .literal _ kind text => foldLiteral kind text
  | .variable _ name path indices dereference =>
    if path.isEmpty && indices.isEmpty && !dereference then constants.find? (Text.upper name)
    else none
  | .call .. => none

/-- The truth value of a constant condition. -/
def foldCondition (constants : Constants) (condition : Expr Mark) : Option Bool :=
  (foldExpr constants condition).bind Value.bool?

/-- Folding meets a literal whose base cannot be read. -/
def hasBadBase {α : Type} : Expr α → Bool
  | .binary _ _ left right => hasBadBase left || hasBadBase right
  | .unary _ _ operand => hasBadBase operand
  | .literal _ kind text => kind.hasBadBase text
  | .variable .. => false
  | .call .. => false

end PlcAudit.Flow
