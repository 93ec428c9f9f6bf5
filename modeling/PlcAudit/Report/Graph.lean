import PlcAudit.Graph.Dot
import PlcAudit.Graph.Project
import PlcAudit.Report.Issue

/-!
Documents about dependency graphs and call graphs.
-/

namespace PlcAudit.Report

open PlcAudit.Graph

def entity (node : Entity) : Json := .object [
  ("name", .string node.name),
  ("kind", .string node.kind.name),
  ("file_path", .option .string node.file),
  ("description", .string node.description)]

def link (link : Link) : Json := .object [
  ("from", .string link.source),
  ("to", .string link.target),
  ("kind", .string link.kind.name),
  ("line", .nat link.line)]

def graph (graph : DependencyGraph) : Json := .object [
  ("nodes", .list entity graph.nodes.values),
  ("edges", .list link graph.links.values)]

def cycle (cycle : CircularReference) : Json := .object [
  ("cycle", .object [
    ("cycle_path", .strings cycle.path),
    ("severity", .string cycle.severity.name),
    ("description", .string cycle.description)]),
  ("path", .string cycle.text)]

def callNode (node : CallNode) : Json := .object [
  ("name", .string node.name),
  ("kind", .string node.kind.name),
  ("file_path", .option .string node.file),
  ("call_count", .nat node.callCount)]

def callEdge (edge : CallEdge) : Json := .object [
  ("caller", .string edge.caller),
  ("callee", .string edge.callee),
  ("sites", .list (fun site => .array [.string site.first, .nat site.second]) edge.sites.keys)]

def callDepth (depth : CallDepth) : Json := .object [
  ("depth", match depth with
    | .bounded edges => .object [("Bounded", .nat edges)]
    | .undefined cycle => .object [("Undefined", .object [("cycle", .strings cycle)])]),
  ("text", .string depth.text)]

def callGraph (graph : CallGraph) : List (String × Json) := [
  ("nodes", .list (fun (key, node) => .array [.string key, callNode node]) graph.nodes.entries),
  ("edges", .list callEdge graph.edges.values)]

/-- The call graph with what follows from it. -/
def callGraphState (graph : CallGraph) : Json :=
  .object (callGraph graph ++ [
    ("max_depth", callDepth graph.maxDepth),
    ("recursive", .strings graph.recursiveNodes)])

def dependencies (found : Dependencies) : List (String × Json) := [
  ("graph", graph found.graph),
  ("calls", .object (callGraph found.calls)),
  ("recursive", .strings found.calls.recursiveNodes),
  ("cycles", .list cycle found.cycles),
  ("max_depth", callDepth found.maxDepth),
  ("files", .nat found.filesAnalyzed),
  ("partial", .bool found.incomplete),
  ("total_issues", .nat found.totalIssues),
  ("issues", .list issue found.issues),
  ("dot", .string found.graph.dot)]

end PlcAudit.Report
