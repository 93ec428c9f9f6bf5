import PlcAudit.Code.Tree
import PlcAudit.Code.Walk
import PlcAudit.Data.Schedule
import PlcAudit.Fault
import PlcAudit.Graph.Call

/-!
Dependencies and calls of a project. Every file gives a fragment of both graphs, whose names are
looked up among the declarations of the whole project; the fragments are merged in the order of the
files.
-/

namespace PlcAudit.Graph

open Code

/-- Cuts a text behind a number of bytes of its encoding. A text that is shorter is not cut; a cut
inside a character is a fault. -/
def cutBytes : Nat → List Char → Except Fault (Option (List Char × List Char))
  | 0, rest => .ok (some ([], rest))
  | _ + 1, [] => .ok none
  | count + 1, c :: rest =>
    if count + 1 < c.utf8Size then .error .splitCharacter
    else (cutBytes (count + 1 - c.utf8Size) rest).map fun cut =>
      cut.map fun (before, after) => (c :: before, after)

/-- Removes a wrapper from the beginning of a type, in any letter case. -/
def withoutWrapper (wrapper : String) (type : List Char) : Except Fault (List Char) := do
  match ← cutBytes wrapper.utf8ByteSize type with
  | some (start, rest) =>
    if Text.sameName (String.ofList start) wrapper then
      return Text.trimEnd (Text.trimStart rest)
    else return type
  | none => return type

/-- What arrays of a type consist of; of another type, the type itself. -/
def elementType (type : List Char) : List Char :=
  let type := Text.trimEnd (Text.trimStart type)
  match Text.cutLast? " OF ".toList type with
  | some (before, after) =>
    if Text.hasStart (Text.upper (String.ofList (Text.trimStart before))) "ARRAY" then
      Text.trimEnd (Text.trimStart after)
    else type
  | none => type

def wrappers : List String := ["POINTER TO ", "REFERENCE TO ", "REF_TO "]

/-- The type that a declared type is about, behind arrays, pointers and references. Each kind of
wrapper is removed once, in a fixed order. -/
def referencedType (type : String) : Except Fault String :=
  (wrappers.foldlM (fun rest wrapper => withoutWrapper wrapper rest) (elementType type.toList)).map
    String.ofList

def EntityKind.ofPou : PouKind → EntityKind
  | .program => .program
  | .functionBlock .. => .functionBlock
  | .function _ => .function

/-- The nodes that a file declares. -/
def declaredEntities (tree : Tree) : List Entity :=
  (tree.pous.map fun pou =>
    { name := pou.name, kind := .ofPou pou.kind, file := some tree.file
      description := pou.label }) ++
  (tree.globalLists.flatMap fun list => list.decls.map fun decl =>
    { name := decl.name, kind := .global, file := some tree.file
      description := s!"{decl.dataType} in {list.name}" }) ++
  (tree.dataTypes.map fun decl =>
    { name := decl.name, kind := .dataType, file := some tree.file, description := decl.kind.name })

/-- Names and lines of the calls among nodes. -/
def callsIn (nodes : List Node) : List (String × Nat) :=
  nodes.filterMap fun node =>
    match node with
    | .stmt (.call tag name _) | .expr (.call tag name _) => some (name, tag.line)
    | _ => none

/-- Names and lines of the variables among nodes, read or written. -/
def referencesIn (nodes : List Node) : List (String × Nat) :=
  nodes.filterMap fun node =>
    match node with
    | .expr (.variable tag name ..) => some (name, tag.line)
    | .target written => some (written.name, written.tag.line)
    | _ => none

/-- The types of the variables of a unit, by key; the last declaration of a name counts. -/
def localTypes (pou : Pou Mark) : Table String String :=
  .ofList (pou.decls.map fun (_, decl) => (key decl.name, decl.dataType))

/-- The unit declares the name as external. -/
def isExternal (pou : Pou Mark) (name : String) : Bool :=
  pou.blocks.any fun block =>
    block.scope == .external && block.decls.any fun decl => Text.sameName decl.name name

/-- What one unit contributes to the graphs: links, and calls with their lines. -/
structure Contribution where
  links : List Link
  calls : List (String × Nat)
  deriving DecidableEq, Inhabited, Repr

/-- The base and the interfaces of a function block. -/
def heritage (pou : Pou Mark) : List Link :=
  match pou.kind with
  | .functionBlock base interfaces =>
    (base.toList.map fun target => ⟨pou.name, target, .inheritance, pou.tag.line⟩) ++
      interfaces.map fun target => ⟨pou.name, target, .implementation, pou.tag.line⟩
  | _ => []

/-- Looks up what a unit uses. A call of an instance is a call of its type; variables of the unit
itself are no dependencies, except those it declares as external. -/
def contribution (kindOf : String → Option EntityKind) (pou : Pou Mark) :
    Except Fault Contribution := do
  let types ← pou.decls.mapM fun (_, decl) =>
    (referencedType decl.dataType).map fun type => (type, decl.tag.line)
  let uses := types.filter fun (type, _) =>
    kindOf type == some .functionBlock || kindOf type == some .dataType
  let locals := localTypes pou
  let nodes := (Root.pou pou).walk
  let called ← (callsIn nodes).mapM fun (name, line) =>
    match locals.find? (key name) with
    | some type => (referencedType type).map fun type => (type, line)
    | none => .ok (name, line)
  let calls := called.filter fun (target, _) => (kindOf target).any EntityKind.isCallable
  let references := (referencesIn nodes).filter fun (name, _) =>
    (!locals.contains (key name) || isExternal pou name) && kindOf name == some .global
  return {
    links := heritage pou ++
      (uses.map fun (type, line) => ⟨pou.name, type, .typeUse, line⟩) ++
      (calls.map fun (target, line) => ⟨pou.name, target, .call, line⟩) ++
      (references.map fun (name, line) => ⟨pou.name, name, .reference, line⟩)
    calls }

/-- The graphs of one file. -/
def fragment (kindOf : String → Option EntityKind) (tree : Tree) :
    Except Fault (DependencyGraph × CallGraph) := do
  let parts ← tree.pous.mapM fun pou => (contribution kindOf pou).map fun part => (pou, part)
  let links := parts.flatMap fun (_, part) => part.links
  let calls := parts.flatMap fun (pou, part) => part.calls.map fun call => (pou.name, call)
  return (links.foldl DependencyGraph.addLink {},
    calls.foldl
      (fun graph (caller, target, line) => graph.addCall caller target ⟨tree.file, line⟩) {})

/-- The dependencies of a project. -/
structure Dependencies where
  graph : DependencyGraph
  calls : CallGraph
  cycles : List CircularReference
  maxDepth : CallDepth
  filesAnalyzed : Nat
  /-- Not all files were analysed. -/
  incomplete : Bool

/-- The nodes of all files. -/
def declaredGraph (trees : List Tree) : DependencyGraph :=
  (trees.flatMap declaredEntities).foldl DependencyGraph.addNode {}

/-- The call graph of what can be called, without calls. -/
def callableGraph (graph : DependencyGraph) : CallGraph :=
  (graph.nodes.values.filter fun node => node.kind.isCallable).foldl
    (fun calls node => calls.addNode node.name node.kind node.file) {}

/-- What the fragments of the analysed files add up to. -/
def Dependencies.ofFragments (trees : List Tree) (fragments : List (DependencyGraph × CallGraph))
    (filesAnalyzed : Nat) : Dependencies :=
  let declared := declaredGraph trees
  let graph := fragments.foldl (fun graph part => graph.merge part.1) declared
  let calls := fragments.foldl (fun graph part => graph.merge part.2) (callableGraph declared)
  { graph
    calls
    cycles := graph.circularReferences
    maxDepth := calls.maxDepth
    filesAnalyzed
    incomplete := decide (filesAnalyzed < trees.length) }

/-- Builds both graphs of a project. A run that is cancelled at its start only declares nodes. -/
def analyze (trees : List Tree) (cancelled : Bool) : Except Fault Dependencies := do
  let declared := declaredGraph trees
  let kindOf := fun name => (declared.node? name).map Entity.kind
  let analysed := if cancelled then [] else trees
  let fragments ← analysed.mapM (fragment kindOf)
  return .ofFragments trees fragments analysed.length

/-- Builds both graphs of a project, whose files are looked at side by side. -/
def analyzeBeside {trees : List Tree} (schedule : Schedule trees) : Except Fault Dependencies := do
  let declared := declaredGraph trees
  let kindOf := fun name => (declared.node? name).map Entity.kind
  let fragments ← schedule.collect (fragment kindOf)
  return .ofFragments trees fragments trees.length

namespace Dependencies

/-- A cycle as an issue, at the first line where its first member leads into it. -/
def cycleIssue (graph : DependencyGraph) (cycle : CircularReference) : Issue :=
  let first := cycle.path.headD ""
  let issue : Issue := {
    ruleId := "DEP001"
    severity := cycle.severity
    category := "Architecture"
    title := "Circular reference"
    description := s!"{cycle.description}: {cycle.text}"
    whyDangerous :=
      "Cyclic POU dependencies make call depth unbounded and initialisation order undefined."
    recommendation := "Break the cycle by moving shared logic into a separate function block." }
  match (graph.node? first).bind Entity.file with
  | some file =>
    let lines := ((graph.dependenciesOf first).filter fun link => cycle.contains link.target).map
      Link.line
    issue.placed file (lines.min?.getD 0)
  | none => issue.placed "" 0

def issues (dependencies : Dependencies) : List Issue :=
  dependencies.cycles.map (cycleIssue dependencies.graph)

def totalIssues (dependencies : Dependencies) : Nat :=
  dependencies.cycles.length

end Dependencies

end PlcAudit.Graph
