import PlcAudit.Code.Basic

/-!
Any node of a tree. `children` gives the parts of a node in source order, `Root.visits` lists a
whole tree in that order, every node before its parts and together with the node it is a part of.
-/

namespace PlcAudit.Code

inductive NodeKind where
  | program | functionBlock | function | globalVarList | varDeclList | varDecl
  | assignment | cond | select | forLoop | whileLoop | repeatLoop | exit | return_
  | binaryExpr | unaryExpr | literal | variableRef | functionCall
  | dataTypeDecl | structType | enumType
  deriving DecidableEq, Inhabited, Repr

namespace NodeKind

def name : NodeKind → String
  | .program => "Program"
  | .functionBlock => "FunctionBlock"
  | .function => "Function"
  | .globalVarList => "GlobalVarList"
  | .varDeclList => "VarDeclList"
  | .varDecl => "VarDecl"
  | .assignment => "Assignment"
  | .cond => "If"
  | .select => "Case"
  | .forLoop => "For"
  | .whileLoop => "While"
  | .repeatLoop => "Repeat"
  | .exit => "Exit"
  | .return_ => "Return"
  | .binaryExpr => "BinaryExpr"
  | .unaryExpr => "UnaryExpr"
  | .literal => "Literal"
  | .variableRef => "VariableRef"
  | .functionCall => "FunctionCall"
  | .dataTypeDecl => "DataTypeDecl"
  | .structType => "StructType"
  | .enumType => "EnumType"

def isPou : NodeKind → Bool
  | .program | .functionBlock | .function => true
  | _ => false

end NodeKind

def Expr.kind {α : Type} : Expr α → NodeKind
  | .binary .. => .binaryExpr
  | .unary .. => .unaryExpr
  | .literal .. => .literal
  | .variable .. => .variableRef
  | .call .. => .functionCall

def Stmt.kind {α σ : Type} : Stmt α σ → NodeKind
  | .assign .. => .assignment
  | .cond .. => .cond
  | .select .. => .select
  | .forLoop .. => .forLoop
  | .whileLoop .. => .whileLoop
  | .repeatLoop .. => .repeatLoop
  | .exit _ => .exit
  | .return_ _ => .return_
  | .call .. => .functionCall

def Pou.nodeKind {α σ : Type} (pou : Pou α σ) : NodeKind :=
  match pou.kind with
  | .program => .program
  | .functionBlock .. => .functionBlock
  | .function _ => .function

/-- A node of a built tree. A target is a variable that is written. -/
inductive Node where
  | pou (node : Pou Mark)
  | globals (node : GlobalList Mark)
  | block (node : VarBlock Mark)
  | decl (node : VarDecl Mark)
  | stmt (node : Stmt Mark)
  | expr (node : Expr Mark)
  | target (node : Target Mark)
  | dataType (node : TypeDecl Mark)
  | struct (tag : Mark) (fields : List (VarDecl Mark))
  | enum (tag : Mark) (values : List EnumValue)

namespace Node

def mark : Node → Mark
  | .pou node => node.tag
  | .globals node => node.tag
  | .block node => node.tag
  | .decl node => node.tag
  | .stmt node => node.tag
  | .expr node => node.tag
  | .target node => node.tag
  | .dataType node => node.tag
  | .struct tag _ => tag
  | .enum tag _ => tag

def id (node : Node) : Nat := node.mark.id

def kind : Node → NodeKind
  | .pou node => node.nodeKind
  | .globals _ => .globalVarList
  | .block _ => .varDeclList
  | .decl _ => .varDecl
  | .stmt node => node.kind
  | .expr node => node.kind
  | .target _ => .variableRef
  | .dataType _ => .dataTypeDecl
  | .struct .. => .structType
  | .enum .. => .enumType

def ofRoot : Root Mark → Node
  | .pou declared => .pou declared
  | .globals declared => .globals declared
  | .dataType declared => .dataType declared

end Node

def Expr.children : Expr Mark → List Node
  | .binary _ _ left right => [.expr left, .expr right]
  | .unary _ _ operand => [.expr operand]
  | .literal .. => []
  | .variable _ _ _ indices _ => indices.map .expr
  | .call _ _ args => args.map fun arg => .expr arg.value

def Stmt.children : Stmt Mark → List Node
  | .assign _ target value => [.target target, .expr value]
  | .cond _ condition thenBody elsifs elseBody =>
    .expr condition :: thenBody.map .stmt ++
      elsifs.flatMap (fun clause => .expr clause.condition :: clause.body.map .stmt) ++
      (elseBody.getD []).map .stmt
  | .select _ selector elements elseBody =>
    .expr selector ::
      elements.flatMap (fun element => element.labels.map .expr ++ element.body.map .stmt) ++
      (elseBody.getD []).map .stmt
  | .forLoop _ counter start stop step body =>
    .target counter :: .expr start :: .expr stop :: step.toList.map .expr ++ body.map .stmt
  | .whileLoop _ condition body => .expr condition :: body.map .stmt
  | .repeatLoop _ body until_ => body.map .stmt ++ [.expr until_]
  | .exit _ => []
  | .return_ _ => []
  | .call _ _ args => args.map fun arg => .expr arg.value

/-- The parts of a node in source order. -/
def Node.children : Node → List Node
  | .pou node => node.blocks.map .block ++ node.body.map .stmt
  | .globals node => node.blocks.map .block
  | .block node => node.decls.map .decl
  | .decl node => node.initial.toList.map .expr
  | .stmt node => node.children
  | .expr node => node.children
  | .target node => node.indices.map .expr
  | .dataType node =>
    match node.body with
    | .struct tag fields | .union tag fields => [.struct tag fields]
    | .enum tag values => [.enum tag values]
    | .alias _ => []
  | .struct _ fields => fields.map .decl
  | .enum .. => []

/-- A node met on the way through a tree, and the identity of the node it is a part of. -/
structure Visit where
  node : Node
  parent : Option Nat

mutual

def Expr.visits (parent : Option Nat) : Expr Mark → List Visit
  | .binary tag op left right =>
    ⟨.expr (.binary tag op left right), parent⟩ ::
      (left.visits (some tag.id) ++ right.visits (some tag.id))
  | .unary tag op operand =>
    ⟨.expr (.unary tag op operand), parent⟩ :: operand.visits (some tag.id)
  | .literal tag kind text => [⟨.expr (.literal tag kind text), parent⟩]
  | .variable tag name path indices dereference =>
    ⟨.expr (.variable tag name path indices dereference), parent⟩ ::
      Expr.visitsAll (some tag.id) indices
  | .call tag name args =>
    ⟨.expr (.call tag name args), parent⟩ :: Arg.visitsAll (some tag.id) args

def Expr.visitsAll (parent : Option Nat) : List (Expr Mark) → List Visit
  | [] => []
  | expr :: rest => expr.visits parent ++ Expr.visitsAll parent rest

def Arg.visitsAll (parent : Option Nat) : List (Arg Mark) → List Visit
  | [] => []
  | .mk _ value _ :: rest => value.visits parent ++ Arg.visitsAll parent rest

end

def Expr.visitsOption (parent : Option Nat) : Option (Expr Mark) → List Visit
  | none => []
  | some expr => expr.visits parent

def Target.visits (parent : Option Nat) (target : Target Mark) : List Visit :=
  ⟨.target target, parent⟩ :: Expr.visitsAll (some target.tag.id) target.indices

mutual

def Stmt.visits (parent : Option Nat) : Stmt Mark → List Visit
  | .assign tag target value =>
    ⟨.stmt (.assign tag target value), parent⟩ ::
      (target.visits (some tag.id) ++ value.visits (some tag.id))
  | .cond tag condition thenBody elsifs elseBody =>
    ⟨.stmt (.cond tag condition thenBody elsifs elseBody), parent⟩ ::
      (condition.visits (some tag.id) ++ Stmt.visitsAll (some tag.id) thenBody ++
        Clause.visitsAll (some tag.id) elsifs ++ Stmt.visitsOption (some tag.id) elseBody)
  | .select tag selector elements elseBody =>
    ⟨.stmt (.select tag selector elements elseBody), parent⟩ ::
      (selector.visits (some tag.id) ++ Element.visitsAll (some tag.id) elements ++
        Stmt.visitsOption (some tag.id) elseBody)
  | .forLoop tag counter start stop step body =>
    ⟨.stmt (.forLoop tag counter start stop step body), parent⟩ ::
      (counter.visits (some tag.id) ++ start.visits (some tag.id) ++ stop.visits (some tag.id) ++
        Expr.visitsOption (some tag.id) step ++ Stmt.visitsAll (some tag.id) body)
  | .whileLoop tag condition body =>
    ⟨.stmt (.whileLoop tag condition body), parent⟩ ::
      (condition.visits (some tag.id) ++ Stmt.visitsAll (some tag.id) body)
  | .repeatLoop tag body until_ =>
    ⟨.stmt (.repeatLoop tag body until_), parent⟩ ::
      (Stmt.visitsAll (some tag.id) body ++ until_.visits (some tag.id))
  | .exit tag => [⟨.stmt (.exit tag), parent⟩]
  | .return_ tag => [⟨.stmt (.return_ tag), parent⟩]
  | .call tag name args =>
    ⟨.stmt (.call tag name args), parent⟩ :: Arg.visitsAll (some tag.id) args

def Stmt.visitsAll (parent : Option Nat) : List (Stmt Mark) → List Visit
  | [] => []
  | stmt :: rest => stmt.visits parent ++ Stmt.visitsAll parent rest

def Stmt.visitsOption (parent : Option Nat) : Option (List (Stmt Mark)) → List Visit
  | none => []
  | some body => Stmt.visitsAll parent body

def Clause.visitsAll (parent : Option Nat) : List (Clause Mark) → List Visit
  | [] => []
  | .mk _ condition body :: rest =>
    condition.visits parent ++ Stmt.visitsAll parent body ++ Clause.visitsAll parent rest

def Element.visitsAll (parent : Option Nat) : List (Element Mark) → List Visit
  | [] => []
  | .mk labels body :: rest =>
    Expr.visitsAll parent labels ++ Stmt.visitsAll parent body ++ Element.visitsAll parent rest

end

def VarDecl.visits (parent : Option Nat) (decl : VarDecl Mark) : List Visit :=
  ⟨.decl decl, parent⟩ :: Expr.visitsOption (some decl.tag.id) decl.initial

def VarBlock.visits (parent : Option Nat) (block : VarBlock Mark) : List Visit :=
  ⟨.block block, parent⟩ :: block.decls.flatMap (VarDecl.visits (some block.tag.id))

/-- A whole root in source order. -/
def Root.visits : Root Mark → List Visit
  | .pou declared =>
    ⟨.pou declared, none⟩ ::
      (declared.blocks.flatMap (VarBlock.visits (some declared.tag.id)) ++
        Stmt.visitsAll (some declared.tag.id) declared.body)
  | .globals declared =>
    ⟨.globals declared, none⟩ ::
      declared.blocks.flatMap (VarBlock.visits (some declared.tag.id))
  | .dataType declared =>
    ⟨.dataType declared, none⟩ ::
      match declared.body with
      | .struct tag fields | .union tag fields =>
        ⟨.struct tag fields, some declared.tag.id⟩ ::
          fields.flatMap (VarDecl.visits (some tag.id))
      | .enum tag values => [⟨.enum tag values, some declared.tag.id⟩]
      | .alias _ => []

end PlcAudit.Code
