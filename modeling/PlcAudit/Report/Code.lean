import PlcAudit.Code.Complexity
import PlcAudit.Code.TypeText
import PlcAudit.Code.Tree
import PlcAudit.Code.Walk
import PlcAudit.Json.Basic

/-!
Documents about trees: nodes, declarations and complexity measures.
-/

namespace PlcAudit.Report

open Code

def span (span : Span) : Json :=
  .array [.nat span.startLine, .nat span.startColumn, .nat span.endLine, .nat span.endColumn]

def complexity (measures : Complexity) : Json := .object [
  ("pou_name", .string measures.pouName),
  ("cyclomatic_complexity", .nat measures.cyclomatic),
  ("cognitive_complexity", .nat measures.cognitive),
  ("nesting_depth", .nat measures.nestingDepth),
  ("decision_points", .nat measures.decisionPoints),
  ("loop_count", .nat measures.loopCount),
  ("logical_operator_count", .nat measures.logicalOperators),
  ("parameter_count", .nat measures.parameterCount),
  ("return_points", .nat measures.returnPoints),
  ("statement_count", .nat measures.statementCount),
  ("line_count", .nat measures.lineCount)]

def node (tree : Tree) (node : Node) : Json := .object [
  ("id", .nat node.id),
  ("kind", .string node.kind.name),
  ("span", span node.mark.span),
  ("pou", .bool node.kind.isPou),
  ("parent", .option .nat (tree.parent? node.id)),
  ("parent_kind", .option (fun kind => .string kind.name) (tree.parentKind? node.id))]

def varDecl (block : VarBlock Mark) (decl : VarDecl Mark) : Json := .object [
  ("name", .string decl.name),
  ("type", .string decl.dataType),
  ("line", .nat decl.tag.line),
  ("scope", .string block.scope.keyword),
  ("constant", .bool block.constant),
  ("array", .bool decl.isArray),
  ("pointer", .bool decl.pointer),
  ("reference", .bool decl.reference),
  ("address", .option .string decl.address),
  ("implicit_default", .bool (TypeText.hasImplicitDefault decl.dataType))]

def declarations (blocks : List (VarBlock Mark)) : Json :=
  .array (blocks.flatMap fun block => block.decls.map (varDecl block))

def pou (declared : Pou Mark) : Json := .object [
  ("name", .string declared.name),
  ("label", .string declared.label),
  ("params", .nat declared.parameterCount),
  ("vars", declarations declared.blocks),
  ("complexity", complexity declared.complexity)]

def event (event : Event) : Json :=
  .array ([.string event.what, .string event.name, .nat event.line] ++
    (event.value.toList.map (.option fun value => .string (toString value))))

def nodeInfo (info : NodeInfo) : Json := .object [
  ("kind", .string info.kind.name),
  ("span", span info.span),
  ("parent", .option .nat info.parent)]

/-- An overview of a source file. -/
def tree (tree : Tree) : List (String × Json) := [
  ("file", .string tree.file),
  ("valid", .bool tree.isValid),
  ("node_count", .nat tree.nodeCount),
  ("line_count", .nat tree.lineCount),
  ("error_summary", .string tree.errorSummary),
  ("roots", .list (fun root => .array [.string root.name, .nat root.tag.id, .nat root.tag.line])
    tree.roots),
  ("nodes", .list (node tree) tree.descendants),
  ("pous", .list pou tree.pous),
  ("globals", .list (fun list => .object [
    ("name", .string list.name), ("vars", declarations list.blocks)]) tree.globalLists),
  ("types", .list (fun decl => .object [
    ("name", .string decl.name), ("kind", .string decl.kind.name)]) tree.dataTypes)]

/-- The order of evaluation of a file, and the top-level statements of its units. -/
def walk (tree : Tree) : Json := .object [
  ("events", .list event (eventsOf (tree.roots.flatMap Root.walk))),
  ("statements", .array (tree.pous.flatMap fun declared => declared.body.map fun stmt => .object [
    ("kind", .string stmt.kind.name),
    ("line", .nat stmt.line),
    ("loop", .bool stmt.isLoop),
    ("events", .nat (eventsOf stmt.walk).length)]))]

end PlcAudit.Report
