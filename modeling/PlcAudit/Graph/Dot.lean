import PlcAudit.Graph.Dependency

/-!
The dependency graph in the language of graph drawing tools: a statement for each node and one for
each link, in the order of the graph.
-/

namespace PlcAudit.Graph

/-- Name of a kind of node in the label of a drawing. -/
def EntityKind.label : EntityKind → String
  | .program => "PROGRAM"
  | .functionBlock => "FUNCTION_BLOCK"
  | .function => "FUNCTION"
  | .global => "GLOBAL"
  | .dataType => "TYPE"
  | .unknown => "UNKNOWN"

def EntityKind.color : EntityKind → String
  | .program => "lightblue"
  | .functionBlock => "lightgreen"
  | .function => "lightyellow"
  | _ => "white"

def LinkKind.style : LinkKind → String
  | .call => "solid"
  | .inheritance => "dashed"
  | _ => "dotted"

def LinkKind.label : LinkKind → String
  | .call => "calls"
  | .inheritance => "extends"
  | .implementation => "implements"
  | .typeUse => "uses type"
  | .reference => "references"

/-- A character inside quotes: a backslash stands before backslashes and quotes. -/
def escapedChar (c : Char) : List Char :=
  if c == '\\' || c == '"' then ['\\', c] else [c]

def escaped (text : String) : String :=
  String.ofList (text.toList.flatMap escapedChar)

def nodeStatement (node : Entity) : String :=
  let name := escaped node.name
  s!"    \"{name}\" [label=\"{name}\\n{node.kind.label}\", fillcolor={node.kind.color}];\n"

def linkStatement (link : Link) : String :=
  s!"    \"{escaped link.source}\" -> \"{escaped link.target}\" " ++
    s!"[style={link.kind.style}, label=\"{link.kind.label}\"];\n"

/-- The whole drawing. -/
def DependencyGraph.dot (graph : DependencyGraph) : String :=
  "digraph Dependencies \x7b\n    rankdir=LR;\n    node [shape=box, style=filled];\n" ++
    String.join (graph.nodes.values.map nodeStatement) ++
    String.join (graph.links.values.map linkStatement) ++ "\x7d\n"

end PlcAudit.Graph
