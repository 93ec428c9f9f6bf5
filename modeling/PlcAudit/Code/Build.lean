import PlcAudit.Code.Basic
import PlcAudit.Text.Line

/-!
Building trees from descriptions. Nodes are numbered from zero in the order in which they are
built, parts before wholes, and a node without a span of its own gets one from its parts.
-/

namespace PlcAudit.Code

/-- Building reads and raises the next free number. -/
abbrev Numbered := StateM Nat

/-- Takes the next number for a node. What its place says about identity and span wins. -/
def Place.mark (place : Place) (span : Span) : Numbered Mark := do
  let next ← get
  set (next + 1)
  return { id := place.id.getD next, span := place.span.getD span }

def maxLine (lines : List Nat) (least : Nat) : Nat :=
  lines.foldl max least

mutual

def Expr.build : Expr Place → Numbered (Expr Mark)
  | .binary place op left right => do
    let left ← left.build
    let right ← right.build
    let tag ← place.mark ⟨left.span.startLine, left.span.startColumn,
      right.span.endLine, right.span.endColumn⟩
    return .binary tag op left right
  | .unary place op operand => do
    let operand ← operand.build
    let tag ← place.mark (.line operand.line)
    return .unary tag op operand
  | .literal place kind text => do
    let tag ← place.mark (.line place.line)
    return .literal tag kind text
  | .variable place name path indices dereference => do
    let indices ← Expr.buildAll indices
    let tag ← place.mark (.line place.line)
    return .variable tag name path indices dereference
  | .call place name args => do
    let args ← Arg.buildAll args
    let tag ← place.mark (.line place.line)
    return .call tag name args

def Expr.buildAll : List (Expr Place) → Numbered (List (Expr Mark))
  | [] => return []
  | expr :: rest => do
    let expr ← expr.build
    let rest ← Expr.buildAll rest
    return expr :: rest

def Arg.buildAll : List (Arg Place) → Numbered (List (Arg Mark))
  | [] => return []
  | .mk name value output :: rest => do
    let value ← value.build
    let rest ← Arg.buildAll rest
    return .mk name value output :: rest

end

def Expr.buildOption : Option (Expr Place) → Numbered (Option (Expr Mark))
  | none => return none
  | some expr => do return some (← expr.build)

def Target.build (target : Target Place) : Numbered (Target Mark) := do
  let indices ← Expr.buildAll target.indices
  let tag ← target.tag.mark (.line target.tag.line)
  return { target with tag, indices }

/-- Last line of a block that starts at a line at the earliest. -/
def blockEnd (start : Nat) (body : List (Stmt Mark)) : Nat :=
  maxLine (body.map fun stmt => stmt.tag.span.endLine) start

def clausesEnd (least : Nat) (clauses : List (Clause Mark)) : Nat :=
  maxLine (clauses.map fun clause => clause.span.endLine) least

/-- An element without labels starts where its statement starts. -/
def elementsEnd (line : Nat) (elements : List (Element Mark)) : Nat :=
  maxLine (elements.map fun element =>
    blockEnd ((element.labels.head?.map Expr.line).getD line) element.body) line

def elseEnd (line : Nat) (body : Option (List (Stmt Mark))) : Nat :=
  (body.map (blockEnd line)).getD line

mutual

def Stmt.build : Stmt Place Unit → Numbered (Stmt Mark)
  | .assign place target value => do
    let value ← value.build
    let target ← target.build
    let tag ← place.mark (.line place.line)
    return .assign tag target value
  | .cond place condition thenBody elsifs elseBody => do
    let condition ← condition.build
    let thenBody ← Stmt.buildAll thenBody
    let elsifs ← Clause.buildAll elsifs
    let elseBody ← Stmt.buildOption elseBody
    let last := max (clausesEnd (blockEnd place.line thenBody) elsifs) (elseEnd place.line elseBody)
    let tag ← place.mark (.lines place.line (last + 1))
    return .cond tag condition thenBody elsifs elseBody
  | .select place selector elements elseBody => do
    let selector ← selector.build
    let elements ← Element.buildAll elements
    let elseBody ← Stmt.buildOption elseBody
    let last := max (elementsEnd place.line elements) (elseEnd place.line elseBody)
    let tag ← place.mark (.lines place.line (last + 1))
    return .select tag selector elements elseBody
  | .forLoop place counter start stop step body => do
    let start ← start.build
    let stop ← stop.build
    let step ← Expr.buildOption step
    let body ← Stmt.buildAll body
    let tag ← place.mark (.lines place.line (blockEnd place.line body + 1))
    let counter ← counter.build
    return .forLoop tag counter start stop step body
  | .whileLoop place condition body => do
    let condition ← condition.build
    let body ← Stmt.buildAll body
    let tag ← place.mark (.lines place.line (blockEnd place.line body + 1))
    return .whileLoop tag condition body
  | .repeatLoop place body until_ => do
    let body ← Stmt.buildAll body
    let until_ ← until_.build
    let tag ← place.mark (.lines place.line (max (blockEnd place.line body) until_.line))
    return .repeatLoop tag body until_
  | .exit place => return .exit (← place.mark (.line place.line))
  | .return_ place => return .return_ (← place.mark (.line place.line))
  | .call place name args => do
    let args ← Arg.buildAll args
    let tag ← place.mark (.line place.line)
    return .call tag name args

def Stmt.buildAll : List (Stmt Place Unit) → Numbered (List (Stmt Mark))
  | [] => return []
  | stmt :: rest => do
    let stmt ← stmt.build
    let rest ← Stmt.buildAll rest
    return stmt :: rest

def Stmt.buildOption : Option (List (Stmt Place Unit)) → Numbered (Option (List (Stmt Mark)))
  | none => return none
  | some body => do return some (← Stmt.buildAll body)

/-- A clause begins with its condition and ends with its body. -/
def Clause.buildAll : List (Clause Place Unit) → Numbered (List (Clause Mark))
  | [] => return []
  | .mk _ condition body :: rest => do
    let condition ← condition.build
    let body ← Stmt.buildAll body
    let rest ← Clause.buildAll rest
    return .mk (.lines condition.line (blockEnd condition.line body)) condition body :: rest

def Element.buildAll : List (Element Place Unit) → Numbered (List (Element Mark))
  | [] => return []
  | .mk labels body :: rest => do
    let labels ← Expr.buildAll labels
    let body ← Stmt.buildAll body
    let rest ← Element.buildAll rest
    return .mk labels body :: rest

end

namespace VarDecl

/-- A plain declaration; pointers and references are known from the text of the type. -/
def plain {α : Type} (tag : α) (name dataType : String) : VarDecl α where
  tag := tag
  name := name
  dataType := dataType
  pointer := Text.hasStart (Text.upper dataType) "POINTER TO"
  reference := Text.hasStart (Text.upper dataType) "REFERENCE TO"

/-- A declaration of an array with one range. -/
def array {α : Type} (tag : α) (name elementType : String) (range : ArrayRange) : VarDecl α :=
  { plain tag name s!"ARRAY[{range.lower}..{range.upper}] OF {elementType}" with ranges := [range] }

def build (decl : VarDecl Place) : Numbered (VarDecl Mark) := do
  let initial ← Expr.buildOption decl.initial
  let tag ← decl.tag.mark (.line decl.tag.line)
  return { decl with tag, initial }

def buildAll : List (VarDecl Place) → Numbered (List (VarDecl Mark))
  | [] => return []
  | decl :: rest => do
    let decl ← decl.build
    let rest ← buildAll rest
    return decl :: rest

/-- Last line of a list of declarations, or the given line when it is empty. -/
def lastLine (line : Nat) : List (VarDecl Mark) → Nat
  | [] => line
  | first :: rest => maxLine (rest.map (·.tag.span.endLine)) first.tag.span.endLine

end VarDecl

namespace VarBlock

def build (block : VarBlock Place) : Numbered (VarBlock Mark) := do
  let decls ← VarDecl.buildAll block.decls
  let last := VarDecl.lastLine block.tag.line decls
  let tag ← block.tag.mark (.lines block.tag.line (last + 1))
  return { block with tag, decls }

def buildAll : List (VarBlock Place) → Numbered (List (VarBlock Mark))
  | [] => return []
  | block :: rest => do
    let block ← block.build
    let rest ← buildAll rest
    return block :: rest

def lastLine (line : Nat) : List (VarBlock Mark) → Nat
  | [] => line
  | first :: rest => maxLine (rest.map (·.tag.span.endLine)) first.tag.span.endLine

end VarBlock

def Pou.build (pou : Pou Place Unit) : Numbered (Pou Mark) := do
  let blocks ← VarBlock.buildAll pou.blocks
  let body ← Stmt.buildAll pou.body
  let tag ← pou.tag.mark (.lines pou.tag.line (pou.tag.lastLine.getD pou.tag.line))
  return { pou with tag, blocks, body }

def GlobalList.build (list : GlobalList Place) : Numbered (GlobalList Mark) := do
  let blocks ← VarBlock.buildAll list.blocks
  let tag ← list.tag.mark (.lines list.tag.line (VarBlock.lastLine list.tag.line blocks))
  return { list with tag, blocks }

/-- Values of an enumeration, one a line below its head. -/
def EnumValue.listed (line : Nat) (values : List (String × Option Int)) : List EnumValue :=
  values.zipIdx.map fun ((name, value), position) => { name, value, line := line + 1 + position }

/-- The declaration takes its number before the node of its structure or enumeration. -/
def TypeDecl.build (decl : TypeDecl Place) : Numbered (TypeDecl Mark) := do
  match decl.body with
  | .struct place fields =>
    let fields ← VarDecl.buildAll fields
    let span := Span.lines decl.tag.line (VarDecl.lastLine decl.tag.line fields + 1)
    let tag ← decl.tag.mark span
    let inner ← place.mark span
    return { tag, name := decl.name, body := .struct inner fields }
  | .union place fields =>
    let fields ← VarDecl.buildAll fields
    let span := Span.lines decl.tag.line (VarDecl.lastLine decl.tag.line fields + 1)
    let tag ← decl.tag.mark span
    let inner ← place.mark span
    return { tag, name := decl.name, body := .union inner fields }
  | .enum place values =>
    let span := Span.lines decl.tag.line (decl.tag.line + values.length + 1)
    let tag ← decl.tag.mark span
    let inner ← place.mark span
    return { tag, name := decl.name, body := .enum inner values }
  | .alias target =>
    let tag ← decl.tag.mark (.line decl.tag.line)
    return { tag, name := decl.name, body := .alias target }

def Root.build : Root Place Unit → Numbered (Root Mark)
  | .pou declared => do return .pou (← declared.build)
  | .globals declared => do return .globals (← declared.build)
  | .dataType declared => do return .dataType (← declared.build)

def Root.buildAll : List (Root Place Unit) → Numbered (List (Root Mark))
  | [] => return []
  | root :: rest => do
    let root ← root.build
    let rest ← Root.buildAll rest
    return root :: rest

end PlcAudit.Code
