import PlcAudit.Code.Build
import PlcAudit.Code.Node
import PlcAudit.Data.Table

/-!
Source files with their trees, and the index that knows the parent of every node. An index is built
from the visits of a tree; it refuses a second node of one identity.
-/

namespace PlcAudit.Code

/-- Why a tree or a parent link is refused. -/
inductive TreeError where
  | emptyTree (file : String)
  | alreadyParented (node existing requested : Nat)
  | parentCycle (node parent : Nat)
  | duplicateNode (node : Nat)
  | unknownNode (node : Nat)
  deriving DecidableEq, Repr

def TreeError.name : TreeError → String
  | .emptyTree _ => "EmptyTree"
  | .alreadyParented .. => "NodeAlreadyParented"
  | .parentCycle .. => "ParentCycle"
  | .duplicateNode _ => "DuplicateNode"
  | .unknownNode _ => "UnknownNode"

def TreeError.message : TreeError → String
  | .emptyTree file => s!"syntax tree for {file} has no root nodes"
  | .alreadyParented node existing requested =>
    s!"node #{node} already has parent #{existing}, refusing to attach it under #{requested}"
  | .parentCycle node parent =>
    s!"attaching node #{node} under #{parent} would make it its own ancestor"
  | .duplicateNode node => s!"node #{node} appears more than once in the tree"
  | .unknownNode node => s!"unknown node id #{node}"

/-- What the index knows about a node. -/
structure NodeInfo where
  kind : NodeKind
  span : Span
  parent : Option Nat
  deriving DecidableEq, Repr

/-- Nodes by identity. -/
structure ParentIndex where
  nodes : Table Nat NodeInfo

namespace ParentIndex

def empty : ParentIndex := ⟨.empty⟩

def info? (index : ParentIndex) (id : Nat) : Option NodeInfo := index.nodes.find? id

def parent? (index : ParentIndex) (id : Nat) : Option Nat :=
  (index.info? id).bind (·.parent)

def size (index : ParentIndex) : Nat := index.nodes.size

/-- Enters a node that was met on the way through a tree. -/
def enter (index : ParentIndex) (visit : Visit) : Except TreeError ParentIndex :=
  let id := visit.node.id
  match index.info? id with
  | some known =>
    match known.parent, visit.parent with
    | some existing, some requested =>
      if existing = requested then .error (.duplicateNode id)
      else .error (.alreadyParented id existing requested)
    | _, _ => .error (.duplicateNode id)
  | none =>
    .ok ⟨index.nodes.insert id
      { kind := visit.node.kind, span := visit.node.mark.span, parent := visit.parent }⟩

/-- The index of a list of roots. -/
def build (roots : List (Root Mark)) : Except TreeError ParentIndex :=
  (roots.flatMap Root.visits).foldlM enter empty

/-- Follows parent links upwards. A chain with more links than there are nodes has a cycle. -/
def climb (index : ParentIndex) (start : Nat) :
    Nat → Nat → List Nat → Except TreeError (List Nat)
  | current, room, path =>
    match index.info? current with
    | none => .error (.unknownNode current)
    | some { parent := none, .. } => .ok path.reverse
    | some { parent := some parent, .. } =>
      match room with
      | 0 => .error (.parentCycle start parent)
      | room + 1 => climb index start parent room (parent :: path)

/-- Identities from a node up to its root. -/
def pathToRoot (index : ParentIndex) (id : Nat) : Except TreeError (List Nat) :=
  climb index id id index.size [id]

/-- Attaches a node under another one. A link that is there already may be repeated; a link to a
descendant, and a second parent, are refused. -/
def setParent (index : ParentIndex) (child parent : Nat) : ParentIndex × Except TreeError Unit :=
  match index.info? parent, index.info? child with
  | none, _ => (index, .error (.unknownNode parent))
  | _, none => (index, .error (.unknownNode child))
  | some _, some known =>
    match index.pathToRoot parent with
    | .error problem => (index, .error problem)
    | .ok path =>
      if path.contains child then (index, .error (.parentCycle child parent))
      else match known.parent with
        | some existing =>
          if existing = parent then (index, .ok ())
          else (index, .error (.alreadyParented child existing parent))
        | none =>
          (⟨index.nodes.modify child fun info => { info with parent := some parent }⟩, .ok ())

end ParentIndex

/-- A place where reading a source file failed. -/
structure ParseError where
  line : Nat
  column : Nat
  message : String
  symbol : Option String
  deriving DecidableEq, Repr

/-- A source file that was read. -/
structure Tree where
  file : String
  source : String
  roots : List (Root Mark)
  errors : List ParseError
  index : ParentIndex

namespace Tree

/-- A file with its roots. Without roots there has to be an error that explains it. -/
def ofRoots (file source : String) (roots : List (Root Mark)) (errors : List ParseError) :
    Except TreeError Tree :=
  if roots.isEmpty && errors.isEmpty then .error (.emptyTree file)
  else match ParentIndex.build roots with
    | .error problem => .error problem
    | .ok index => .ok { file, source, roots, errors, index }

/-- Builds the roots of a file from their description. -/
def ofDescription (file source : String) (roots : List (Root Place Unit))
    (errors : List ParseError) : Except TreeError Tree :=
  ofRoots file source ((Root.buildAll roots).run 0).1 errors

/-- A file that could not be read at all. -/
def failed (file source : String) (errors : List ParseError) : Tree :=
  { file, source, roots := [], errors, index := .empty }

def isValid (tree : Tree) : Bool := tree.errors.isEmpty

def nodeCount (tree : Tree) : Nat := tree.index.size

def lineCount (tree : Tree) : Nat := (Text.lines tree.source).length

/-- Every node in source order, each before its parts. -/
def descendants (tree : Tree) : List Node :=
  (tree.roots.flatMap Root.visits).map (·.node)

def parent? (tree : Tree) (id : Nat) : Option Nat := tree.index.parent? id

def parentKind? (tree : Tree) (id : Nat) : Option NodeKind :=
  ((tree.parent? id).bind tree.index.info?).map (·.kind)

def pous (tree : Tree) : List (Pou Mark) :=
  tree.roots.filterMap fun
    | .pou declared => some declared
    | _ => none

def globalLists (tree : Tree) : List (GlobalList Mark) :=
  tree.roots.filterMap fun
    | .globals declared => some declared
    | _ => none

def dataTypes (tree : Tree) : List (TypeDecl Mark) :=
  tree.roots.filterMap fun
    | .dataType declared => some declared
    | _ => none

private def errorLine (file : String) (error : ParseError) : String :=
  let place := s!"{file}:{error.line}:{error.column} {error.message}"
  match error.symbol with
  | some symbol => s!"{place} (near '{symbol}')"
  | none => place

/-- One line for each reading error. -/
def errorSummary (tree : Tree) : String :=
  "\n".intercalate (tree.errors.map (errorLine tree.file))

end Tree

end PlcAudit.Code
