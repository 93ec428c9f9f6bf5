import PlcAudit.Graph.Dependency

/-!
The call graph: one edge from a caller to a callee with all places of calls, and for each node the
number of places that call it.
-/

namespace PlcAudit.Graph

structure CallNode where
  name : String
  kind : EntityKind
  file : Option String := none
  /-- Places that call the node. -/
  callCount : Nat := 0
  deriving DecidableEq, Inhabited, Repr

/-- A place of a call: file and line. -/
abbrev Site := Pair String Nat

structure CallEdge where
  caller : String
  callee : String
  sites : Table Site Unit := .empty

/-- How deep calls go: a number of edges, or no limit because of a cycle of calls. -/
inductive CallDepth where
  | bounded (edges : Nat)
  | undefined (cycle : List String)
  deriving DecidableEq, Inhabited, Repr

def CallDepth.text : CallDepth → String
  | .bounded edges => toString edges
  | .undefined cycle => "undefined (recursive: " ++ Text.joined " → " cycle ++ ")"

structure CallGraph where
  nodes : Table String CallNode := .empty
  edges : Table (Pair String String) CallEdge := .empty

namespace CallGraph

/-- Adds a node; a name that has one keeps it. -/
def addNode (graph : CallGraph) (name : String) (kind : EntityKind) (file : Option String) :
    CallGraph :=
  { graph with nodes := graph.nodes.insertNew (key name) { name, kind, file } }

def edge? (graph : CallGraph) (caller callee : String) : Option CallEdge :=
  graph.edges.find? ⟨key caller, key callee⟩

/-- The place is known for this pair of caller and callee. -/
def hasSite (graph : CallGraph) (caller callee : String) (site : Site) : Bool :=
  (graph.edge? caller callee).any fun edge => edge.sites.contains site

/-- Adds a call at a place; a place that is known changes nothing. -/
def addCall (graph : CallGraph) (caller callee : String) (site : Site) : CallGraph :=
  let graph := (graph.addNode caller .unknown none).addNode callee .unknown none
  if graph.hasSite caller callee site then graph
  else
    { nodes := graph.nodes.modify (key callee) fun node =>
        { node with callCount := node.callCount + 1 }
      edges := graph.edges.alter ⟨key caller, key callee⟩ fun present =>
        let edge := present.getD { caller, callee }
        { edge with sites := edge.sites.insert site () } }

/-- Takes over a node of another graph: a new one without its calls, and what a node of unknown kind
lacks. -/
def mergeNode (graph : CallGraph) (nodeKey : String) (node : CallNode) : CallGraph :=
  { graph with
    nodes := graph.nodes.alter nodeKey fun present =>
      match present with
      | none => { node with callCount := 0 }
      | some existing =>
        if existing.kind == .unknown && node.kind != .unknown then
          { existing with kind := node.kind, file := node.file, name := node.name }
        else existing }

/-- Adds all calls of an edge. -/
def mergeEdge (graph : CallGraph) (edge : CallEdge) : CallGraph :=
  edge.sites.keys.foldl (fun graph site => graph.addCall edge.caller edge.callee site) graph

/-- Adds the nodes and then the calls of another graph. -/
def merge (graph other : CallGraph) : CallGraph :=
  other.edges.values.foldl mergeEdge
    (other.nodes.entries.foldl (fun graph (nodeKey, node) => graph.mergeNode nodeKey node) graph)

private def sortedNames (names : List String) : List String :=
  ((names.mergeSort fun left right => compare left right |>.isLE)).eraseDups

/-- The spellings of what a node calls, in alphabetical order. -/
def callees (graph : CallGraph) (name : String) : List String :=
  sortedNames ((graph.edges.entries.filter fun (edge, _) => edge.first == key name).map
    fun (_, edge) => edge.callee)

/-- The spellings of what calls a node, in alphabetical order. -/
def callers (graph : CallGraph) (name : String) : List String :=
  sortedNames ((graph.edges.entries.filter fun (edge, _) => edge.second == key name).map
    fun (_, edge) => edge.caller)

def adjacency (graph : CallGraph) : Adjacency :=
  { keys := graph.nodes.keys
    next := fun node => (graph.edges.keys.filter fun edge => edge.first == node).map Pair.second }

def spelling (graph : CallGraph) (node : String) : String :=
  ((graph.nodes.find? node).map CallNode.name).getD node

private def depthOf (graph : CallGraph) : Except (List String) Nat → CallDepth
  | .ok edges => .bounded edges
  | .error cycle => .undefined (cycle.map graph.spelling)

/-- The longest chain of calls from a node. -/
def depthFrom? (graph : CallGraph) (name : String) : Option CallDepth :=
  if graph.nodes.contains (key name) then
    some (graph.depthOf (graph.adjacency.depthFrom (key name)))
  else none

/-- The longest chain of calls. -/
def maxDepth (graph : CallGraph) : CallDepth :=
  graph.depthOf graph.adjacency.maxDepth

/-- Keys of the nodes on the cycles that a search meets, in order. -/
def recursiveKeys (graph : CallGraph) : List String :=
  sortedNames graph.adjacency.cycles.flatten

/-- Names of the nodes that call themselves through others. -/
def recursiveNodes (graph : CallGraph) : List String :=
  graph.recursiveKeys.map graph.spelling

end CallGraph

end PlcAudit.Graph
