import PlcAudit.Code.Node

/-!
The walk through a tree in order of evaluation: the value of an assignment before its target, the
bounds of a loop before its variable. It meets the same nodes as the listing in source order.
-/

namespace PlcAudit.Code

mutual

def Expr.walk : Expr Mark → List Node
  | .binary tag op left right =>
    .expr (.binary tag op left right) :: (left.walk ++ right.walk)
  | .unary tag op operand => .expr (.unary tag op operand) :: operand.walk
  | .literal tag kind text => [.expr (.literal tag kind text)]
  | .variable tag name path indices dereference =>
    .expr (.variable tag name path indices dereference) :: Expr.walkAll indices
  | .call tag name args => .expr (.call tag name args) :: Arg.walkAll args

def Expr.walkAll : List (Expr Mark) → List Node
  | [] => []
  | expr :: rest => expr.walk ++ Expr.walkAll rest

/-- A variable bound to an output is met as a target. -/
def Arg.walkAll : List (Arg Mark) → List Node
  | [] => []
  | .mk _ (.variable tag name path indices dereference) true :: rest =>
    .target { tag, name, path, indices, dereference } ::
      (Expr.walkAll indices ++ Arg.walkAll rest)
  | .mk _ value _ :: rest => value.walk ++ Arg.walkAll rest

end

def Expr.walkOption : Option (Expr Mark) → List Node
  | none => []
  | some expr => expr.walk

def Target.walk (target : Target Mark) : List Node :=
  .target target :: Expr.walkAll target.indices

mutual

def Stmt.walk : Stmt Mark → List Node
  | .assign tag target value =>
    .stmt (.assign tag target value) :: (value.walk ++ target.walk)
  | .cond tag condition thenBody elsifs elseBody =>
    .stmt (.cond tag condition thenBody elsifs elseBody) ::
      (condition.walk ++ Stmt.walkAll thenBody ++ Clause.walkAll elsifs ++
        Stmt.walkOption elseBody)
  | .select tag selector elements elseBody =>
    .stmt (.select tag selector elements elseBody) ::
      (selector.walk ++ Element.walkAll elements ++ Stmt.walkOption elseBody)
  | .forLoop tag counter start stop step body =>
    .stmt (.forLoop tag counter start stop step body) ::
      (start.walk ++ stop.walk ++ Expr.walkOption step ++ counter.walk ++ Stmt.walkAll body)
  | .whileLoop tag condition body =>
    .stmt (.whileLoop tag condition body) :: (condition.walk ++ Stmt.walkAll body)
  | .repeatLoop tag body until_ =>
    .stmt (.repeatLoop tag body until_) :: (Stmt.walkAll body ++ until_.walk)
  | .exit tag => [.stmt (.exit tag)]
  | .return_ tag => [.stmt (.return_ tag)]
  | .call tag name args => .stmt (.call tag name args) :: Arg.walkAll args

def Stmt.walkAll : List (Stmt Mark) → List Node
  | [] => []
  | stmt :: rest => stmt.walk ++ Stmt.walkAll rest

def Stmt.walkOption : Option (List (Stmt Mark)) → List Node
  | none => []
  | some body => Stmt.walkAll body

def Clause.walkAll : List (Clause Mark) → List Node
  | [] => []
  | .mk _ condition body :: rest => condition.walk ++ Stmt.walkAll body ++ Clause.walkAll rest

def Element.walkAll : List (Element Mark) → List Node
  | [] => []
  | .mk labels body :: rest => Expr.walkAll labels ++ Stmt.walkAll body ++ Element.walkAll rest

end

def VarDecl.walk (decl : VarDecl Mark) : List Node :=
  .decl decl :: Expr.walkOption decl.initial

def VarBlock.walk (block : VarBlock Mark) : List Node :=
  .block block :: block.decls.flatMap VarDecl.walk

def Root.walk : Root Mark → List Node
  | .pou declared =>
    .pou declared :: (declared.blocks.flatMap VarBlock.walk ++ Stmt.walkAll declared.body)
  | .globals declared => .globals declared :: declared.blocks.flatMap VarBlock.walk
  | .dataType declared =>
    .dataType declared ::
      match declared.body with
      | .struct tag fields | .union tag fields =>
        .struct tag fields :: fields.flatMap VarDecl.walk
      | .enum tag values => [.enum tag values]
      | .alias _ => []

/-- Something of interest that a walk meets. -/
structure Event where
  what : String
  name : String
  line : Nat
  value : Option (Option Int) := none

/-- What a node is reported as; the values of an enumeration are reported one by one. -/
def Node.events : Node → List Event
  | .pou node => [⟨"pou", node.name, node.tag.line, none⟩]
  | .decl node => [⟨"decl", node.name, node.tag.line, none⟩]
  | .stmt (.assign tag written _) =>
    [⟨"assign", qualifiedName written.name written.path, tag.line, none⟩]
  | .stmt (.exit tag) => [⟨"exit", "", tag.line, none⟩]
  | .stmt (.return_ tag) => [⟨"return", "", tag.line, none⟩]
  | .stmt (.call tag name _) => [⟨"call", name, tag.line, none⟩]
  | .expr (.binary tag op _ _) => [⟨"binary", op.symbol, tag.line, none⟩]
  | .expr (.literal tag _ text) => [⟨"literal", text, tag.line, none⟩]
  | .expr (.variable tag name path _ _) => [⟨"ref", qualifiedName name path, tag.line, none⟩]
  | .expr (.call tag name _) => [⟨"call", name, tag.line, none⟩]
  | .target node => [⟨"target", qualifiedName node.name node.path, node.tag.line, none⟩]
  | .enum _ values => values.map fun entry => ⟨"enum", entry.name, entry.line, some entry.value⟩
  | _ => []

/-- The events of a walk. -/
def eventsOf (nodes : List Node) : List Event :=
  nodes.flatMap Node.events

end PlcAudit.Code
