/-!
Structured Text programs as trees. Every node carries a tag: a `Place` while a program is only
described, a `Mark` with identity and position once it is built.
-/

namespace PlcAudit.Code

/-- A stretch of source text; lines and columns count from one. -/
structure Span where
  startLine : Nat
  startColumn : Nat
  endLine : Nat
  endColumn : Nat
  deriving DecidableEq, Inhabited, Repr

namespace Span

def lines (first last : Nat) : Span := ⟨first, 1, last, 1⟩

def line (line : Nat) : Span := lines line line

end Span

/-- Identity and position of a built node. Its file is that of the tree it stands in. -/
structure Mark where
  id : Nat
  span : Span
  deriving DecidableEq, Inhabited, Repr

def Mark.line (mark : Mark) : Nat := mark.span.startLine

/-- Where a described node stands. Identity and span are worked out when the tree is built, unless
they are given here. -/
structure Place where
  line : Nat := 1
  lastLine : Option Nat := none
  id : Option Nat := none
  span : Option Span := none
  deriving DecidableEq, Inhabited, Repr

inductive BinaryOp where
  | add | subtract | multiply | divide | modulo
  | equal | notEqual | less | lessEqual | greater | greaterEqual
  | and | or | xor
  deriving DecidableEq, Inhabited, Repr

namespace BinaryOp

def all : List BinaryOp :=
  [.add, .subtract, .multiply, .divide, .modulo, .equal, .notEqual, .less, .lessEqual, .greater,
    .greaterEqual, .and, .or, .xor]

def name : BinaryOp → String
  | .add => "Add"
  | .subtract => "Subtract"
  | .multiply => "Multiply"
  | .divide => "Divide"
  | .modulo => "Modulo"
  | .equal => "Equal"
  | .notEqual => "NotEqual"
  | .less => "LessThan"
  | .lessEqual => "LessThanOrEqual"
  | .greater => "GreaterThan"
  | .greaterEqual => "GreaterThanOrEqual"
  | .and => "And"
  | .or => "Or"
  | .xor => "Xor"

/-- How the operator is written in a program. -/
def symbol : BinaryOp → String
  | .add => "+"
  | .subtract => "-"
  | .multiply => "*"
  | .divide => "/"
  | .modulo => "MOD"
  | .equal => "="
  | .notEqual => "<>"
  | .less => "<"
  | .lessEqual => "<="
  | .greater => ">"
  | .greaterEqual => ">="
  | .and => "AND"
  | .or => "OR"
  | .xor => "XOR"

def ofSymbol? (text : String) : Option BinaryOp :=
  all.find? fun op => op.symbol == text

def isComparison : BinaryOp → Bool
  | .equal | .notEqual | .less | .lessEqual | .greater | .greaterEqual => true
  | _ => false

/-- Operators that add a decision to a condition. -/
def isLogical : BinaryOp → Bool
  | .and | .or => true
  | _ => false

end BinaryOp

inductive UnaryOp where
  | not | minus
  deriving DecidableEq, Inhabited, Repr

inductive LiteralKind where
  | integer | real | string | wideString | boolean | time
  deriving DecidableEq, Inhabited, Repr

namespace LiteralKind

def all : List LiteralKind := [.integer, .real, .string, .wideString, .boolean, .time]

def name : LiteralKind → String
  | .integer => "Integer"
  | .real => "Real"
  | .string => "String"
  | .wideString => "WString"
  | .boolean => "Boolean"
  | .time => "Time"

end LiteralKind

mutual

/-- Expressions over node tags of type `α`. -/
inductive Expr (α : Type) where
  | binary (tag : α) (op : BinaryOp) (left right : Expr α)
  | unary (tag : α) (op : UnaryOp) (operand : Expr α)
  | literal (tag : α) (kind : LiteralKind) (text : String)
  | variable (tag : α) (name : String) (path : List String) (indices : List (Expr α))
      (dereference : Bool)
  | call (tag : α) (name : String) (args : List (Arg α))

/-- An argument of a call; `output` marks the binding `name => target`. -/
inductive Arg (α : Type) where
  | mk (name : Option String) (value : Expr α) (output : Bool)

end

instance {α : Type} [Inhabited α] : Inhabited (Expr α) := ⟨.literal default default default⟩

/-- A variable as the target of a write: `name.path[indices]^`. -/
structure Target (α : Type) where
  tag : α
  name : String
  path : List String := []
  indices : List (Expr α) := []
  dereference : Bool := false

/-- The name with its field path. -/
def qualifiedName (name : String) (path : List String) : String :=
  ".".intercalate (name :: path)

namespace Expr

variable {α : Type}

def tag : Expr α → α
  | .binary tag .. | .unary tag .. | .literal tag .. | .variable tag .. | .call tag .. => tag

def span (expr : Expr Mark) : Span := expr.tag.span

def line (expr : Expr Mark) : Nat := expr.tag.line

end Expr

namespace Arg

variable {α : Type}

def name : Arg α → Option String
  | .mk name _ _ => name

def value : Arg α → Expr α
  | .mk _ value _ => value

def output : Arg α → Bool
  | .mk _ _ output => output

end Arg

mutual

/-- Statements. ELSIF clauses have a span and no identity; it is worked out when a tree is built, so
a description has the unit type in the place of `σ`. -/
inductive Stmt (α : Type) (σ : Type := Span) where
  | assign (tag : α) (target : Target α) (value : Expr α)
  | cond (tag : α) (condition : Expr α) (thenBody : List (Stmt α σ)) (elsifs : List (Clause α σ))
      (elseBody : Option (List (Stmt α σ)))
  | select (tag : α) (selector : Expr α) (elements : List (Element α σ))
      (elseBody : Option (List (Stmt α σ)))
  | forLoop (tag : α) (counter : Target α) (start stop : Expr α) (step : Option (Expr α))
      (body : List (Stmt α σ))
  | whileLoop (tag : α) (condition : Expr α) (body : List (Stmt α σ))
  | repeatLoop (tag : α) (body : List (Stmt α σ)) (until_ : Expr α)
  | exit (tag : α)
  | return_ (tag : α)
  | call (tag : α) (name : String) (args : List (Arg α))

/-- An ELSIF clause. -/
inductive Clause (α : Type) (σ : Type := Span) where
  | mk (span : σ) (condition : Expr α) (body : List (Stmt α σ))

/-- An element of a CASE statement: its labels and its body. No analysis asks for a
position other than theirs. -/
inductive Element (α : Type) (σ : Type := Span) where
  | mk (labels : List (Expr α)) (body : List (Stmt α σ))

end

instance {α σ : Type} [Inhabited α] : Inhabited (Stmt α σ) := ⟨.exit default⟩

namespace Clause

variable {α σ : Type}

def span : Clause α σ → σ
  | .mk span _ _ => span

def condition : Clause α σ → Expr α
  | .mk _ condition _ => condition

def body : Clause α σ → List (Stmt α σ)
  | .mk _ _ body => body

end Clause

namespace Element

variable {α σ : Type}

def labels : Element α σ → List (Expr α)
  | .mk labels _ => labels

def body : Element α σ → List (Stmt α σ)
  | .mk _ body => body

end Element

namespace Stmt

variable {α σ : Type}

def tag : Stmt α σ → α
  | .assign tag .. | .cond tag .. | .select tag .. | .forLoop tag .. | .whileLoop tag ..
  | .repeatLoop tag .. | .exit tag | .return_ tag | .call tag .. => tag

def line (stmt : Stmt Mark) : Nat := stmt.tag.line

def isLoop : Stmt α σ → Bool
  | .forLoop .. | .whileLoop .. | .repeatLoop .. => true
  | _ => false

end Stmt

/-- The block a variable is declared in. -/
inductive Scope where
  | local_ | input | output | inOut | global | external | temp
  deriving DecidableEq, Inhabited, Repr

namespace Scope

def all : List Scope := [.local_, .input, .output, .inOut, .global, .external, .temp]

def name : Scope → String
  | .local_ => "Local"
  | .input => "Input"
  | .output => "Output"
  | .inOut => "InOut"
  | .global => "Global"
  | .external => "External"
  | .temp => "Temp"

def keyword : Scope → String
  | .local_ => "VAR"
  | .input => "VAR_INPUT"
  | .output => "VAR_OUTPUT"
  | .inOut => "VAR_IN_OUT"
  | .global => "VAR_GLOBAL"
  | .external => "VAR_EXTERNAL"
  | .temp => "VAR_TEMP"

/-- Variables that callers write or read. -/
def isInterface : Scope → Bool
  | .input | .output | .inOut => true
  | _ => false

def isGlobal : Scope → Bool
  | .global | .external => true
  | _ => false

/-- Variables of the unit's own body. -/
def isLocal : Scope → Bool
  | .local_ | .temp => true
  | _ => false

end Scope

structure ArrayRange where
  lower : Int
  upper : Int
  deriving DecidableEq, Inhabited, Repr

/-- A declared variable. -/
structure VarDecl (α : Type) where
  tag : α
  name : String
  dataType : String
  initial : Option (Expr α) := none
  ranges : List ArrayRange := []
  pointer : Bool := false
  reference : Bool := false
  address : Option String := none

def VarDecl.isArray {α : Type} (decl : VarDecl α) : Bool := !decl.ranges.isEmpty

/-- A VAR block. -/
structure VarBlock (α : Type) where
  tag : α
  scope : Scope
  constant : Bool := false
  decls : List (VarDecl α)

inductive PouKind where
  | program
  | functionBlock (extends_ : Option String) (implements : List String)
  | function (returnType : String)
  deriving DecidableEq, Inhabited, Repr

/-- A program organisation unit: a program, function block or function. -/
structure Pou (α : Type) (σ : Type := Span) where
  tag : α
  kind : PouKind
  name : String
  blocks : List (VarBlock α) := []
  body : List (Stmt α σ) := []

namespace Pou

variable {α σ : Type}

/-- The declared variables, each with its block. -/
def decls (pou : Pou α σ) : List (VarBlock α × VarDecl α) :=
  pou.blocks.flatMap fun block => block.decls.map fun decl => (block, decl)

def parameterCount (pou : Pou α σ) : Nat :=
  ((pou.blocks.filter fun block => block.scope == .input || block.scope == .inOut).map
    fun block => block.decls.length).foldr (· + ·) 0

def isFunction (pou : Pou α σ) : Bool :=
  match pou.kind with
  | .function _ => true
  | _ => false

/-- The keyword that opens the unit in a program. -/
def label (pou : Pou α σ) : String :=
  match pou.kind with
  | .program => "PROGRAM"
  | .functionBlock .. => "FUNCTION_BLOCK"
  | .function _ => "FUNCTION"

end Pou

/-- A list of global variables. -/
structure GlobalList (α : Type) where
  tag : α
  name : String
  blocks : List (VarBlock α)

def GlobalList.decls {α : Type} (list : GlobalList α) : List (VarDecl α) :=
  list.blocks.flatMap (·.decls)

inductive TypeKind where
  | struct | enum | alias | union
  deriving DecidableEq, Inhabited, Repr

namespace TypeKind

def all : List TypeKind := [.struct, .enum, .alias, .union]

def name : TypeKind → String
  | .struct => "Struct"
  | .enum => "Enum"
  | .alias => "Alias"
  | .union => "Union"

end TypeKind

structure EnumValue where
  name : String
  value : Option Int
  line : Nat
  deriving DecidableEq, Inhabited, Repr

/-- What a data type is. Structures, unions and enumerations have a node of their own. -/
inductive TypeBody (α : Type) where
  | struct (tag : α) (fields : List (VarDecl α))
  | union (tag : α) (fields : List (VarDecl α))
  | enum (tag : α) (values : List EnumValue)
  | alias (target : String)

structure TypeDecl (α : Type) where
  tag : α
  name : String
  body : TypeBody α

def TypeDecl.kind {α : Type} (decl : TypeDecl α) : TypeKind :=
  match decl.body with
  | .struct .. => .struct
  | .union .. => .union
  | .enum .. => .enum
  | .alias _ => .alias

/-- What a source file declares at top level. -/
inductive Root (α : Type) (σ : Type := Span) where
  | pou (declared : Pou α σ)
  | globals (declared : GlobalList α)
  | dataType (declared : TypeDecl α)

namespace Root

variable {α σ : Type}

def tag : Root α σ → α
  | .pou declared => declared.tag
  | .globals declared => declared.tag
  | .dataType declared => declared.tag

def name : Root α σ → String
  | .pou declared => declared.name
  | .globals declared => declared.name
  | .dataType declared => declared.name

end Root

end PlcAudit.Code
