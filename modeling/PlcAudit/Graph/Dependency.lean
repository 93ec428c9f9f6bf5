import PlcAudit.Data.Order
import PlcAudit.Graph.Search
import PlcAudit.Issue.Basic
import PlcAudit.Text.Line

/-!
The graph of dependencies between declared things. Nodes are found under their names in upper case;
the spelling of the declaration is kept. Between two nodes there is at most one link of a kind.
-/

namespace PlcAudit.Graph

/-- What a node stands for; `unknown` is a name without a declaration. -/
inductive EntityKind where
  | program | functionBlock | function | global | dataType | unknown
  deriving DecidableEq, Inhabited, Repr

namespace EntityKind

def all : List EntityKind :=
  [.program, .functionBlock, .function, .global, .dataType, .unknown]

def name : EntityKind → String
  | .program => "Program"
  | .functionBlock => "FunctionBlock"
  | .function => "Function"
  | .global => "Global"
  | .dataType => "DataType"
  | .unknown => "Unknown"

/-- Things that can be called. -/
def isCallable : EntityKind → Bool
  | .program | .functionBlock | .function => true
  | _ => false

end EntityKind

inductive LinkKind where
  | call | inheritance | implementation | typeUse | reference
  deriving DecidableEq, Inhabited, Repr

namespace LinkKind

def all : List LinkKind := [.call, .inheritance, .implementation, .typeUse, .reference]

def name : LinkKind → String
  | .call => "FunctionCall"
  | .inheritance => "Inheritance"
  | .implementation => "InterfaceImplementation"
  | .typeUse => "TypeUsage"
  | .reference => "VariableReference"

def rank : LinkKind → Nat
  | .call => 0
  | .inheritance => 1
  | .implementation => 2
  | .typeUse => 3
  | .reference => 4

instance : Ord LinkKind := ⟨compareOn rank⟩

instance : Std.TransOrd LinkKind :=
  inferInstanceAs (Std.TransCmp (compareOn rank))

end LinkKind

structure Entity where
  name : String
  kind : EntityKind
  file : Option String := none
  description : String := ""
  deriving DecidableEq, Inhabited, Repr

structure Link where
  source : String
  target : String
  kind : LinkKind
  /-- First line that gives rise to the link. -/
  line : Nat
  deriving DecidableEq, Inhabited, Repr

/-- What identifies a link: the keys of its ends, and its kind. -/
abbrev LinkKey := Pair String (Pair String LinkKind)

/-- The key of a name. -/
def key (name : String) : String := Text.upper name

def linkKey (source target : String) (kind : LinkKind) : LinkKey :=
  ⟨key source, key target, kind⟩

def LinkKey.source (link : LinkKey) : String := link.first

def LinkKey.target (link : LinkKey) : String := link.second.first

structure DependencyGraph where
  nodes : Table String Entity := .empty
  links : Table LinkKey Link := .empty

namespace DependencyGraph

/-- Adds a node. The first declaration of a name stays, but takes the place of an unknown. -/
def addNode (graph : DependencyGraph) (node : Entity) : DependencyGraph :=
  { graph with
    nodes := graph.nodes.alter (key node.name) fun present =>
      match present with
      | none => node
      | some existing =>
        if existing.kind == .unknown && node.kind != .unknown then node else existing }

/-- Makes sure that a name has a node. -/
def require (graph : DependencyGraph) (name : String) : DependencyGraph :=
  graph.addNode { name, kind := .unknown }

def hasLink (graph : DependencyGraph) (source target : String) (kind : LinkKind) : Bool :=
  graph.links.contains (linkKey source target kind)

/-- Adds a link and the nodes it needs. A link that is there keeps its spelling and takes the
smaller line. -/
def addLink (graph : DependencyGraph) (link : Link) : DependencyGraph :=
  let graph := (graph.require link.source).require link.target
  { graph with
    links := graph.links.alter (linkKey link.source link.target link.kind) fun present =>
      match present with
      | none => link
      | some existing => { existing with line := min existing.line link.line } }

/-- Adds the nodes and then the links of another graph. -/
def merge (graph other : DependencyGraph) : DependencyGraph :=
  other.links.values.foldl addLink (other.nodes.values.foldl addNode graph)

def node? (graph : DependencyGraph) (name : String) : Option Entity :=
  graph.nodes.find? (key name)

/-- The links that start at a node. -/
def dependenciesOf (graph : DependencyGraph) (name : String) : List Link :=
  (graph.links.entries.filter fun (link, _) => link.source == key name).map Prod.snd

/-- The links that lead to a node. -/
def dependentsOf (graph : DependencyGraph) (name : String) : List Link :=
  (graph.links.entries.filter fun (link, _) => link.target == key name).map Prod.snd

/-- The nodes that links of any kind lead to from a node, each once. -/
def adjacency (graph : DependencyGraph) : Adjacency :=
  { keys := graph.nodes.keys
    next := fun node =>
      ((graph.links.keys.filter fun link => link.source == node).map LinkKey.target).eraseDups }

/-- The spelling of the name behind a key. -/
def spelling (graph : DependencyGraph) (node : String) : String :=
  ((graph.nodes.find? node).map Entity.name).getD node

end DependencyGraph

/-- A cycle of dependencies; the last member leads back to the first. -/
structure CircularReference where
  path : List String
  severity : Severity
  description : String
  deriving DecidableEq, Inhabited, Repr

namespace CircularReference

/-- The cycle written out, with its first member at both ends. -/
def text (cycle : CircularReference) : String :=
  Text.joined " → " (cycle.path ++ cycle.path.take 1)

def contains (cycle : CircularReference) (name : String) : Bool :=
  cycle.path.any (Text.sameName · name)

end CircularReference

/-- Each step of a cycle, the step back to its start included. -/
def cycleSteps (cycle : List String) : List (String × String) :=
  cycle.zip (cycle.drop 1 ++ cycle.take 1)

namespace DependencyGraph

/-- A cycle of calls is recursion and critical; any other is worth a warning. -/
def circularReference (graph : DependencyGraph) (cycle : List String) : CircularReference :=
  let isRecursion := (cycleSteps cycle).all fun (source, target) =>
    graph.links.contains ⟨source, target, .call⟩
  { path := cycle.map graph.spelling
    severity := if isRecursion then .critical else .warning
    description :=
      if isRecursion then s!"Recursive call chain across {cycle.length} POU(s)"
      else s!"Circular dependency across {cycle.length} element(s)" }

def circularReferences (graph : DependencyGraph) : List CircularReference :=
  graph.adjacency.cycles.map graph.circularReference

end DependencyGraph

end PlcAudit.Graph
