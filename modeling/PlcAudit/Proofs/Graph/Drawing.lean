import Mathlib.Data.List.Infix
import PlcAudit.Graph.Dot

/-!
Drawings of graphs as texts. A drawing lists a statement for each node and one for each link, and
whatever stands in the names, it can be read in one way only: a quoted name ends at the first quote
that no backslash escapes, and what follows tells nodes from links and one kind from another.
-/

namespace PlcAudit.Graph

/-- What a statement of a drawing says. -/
inductive Statement where
  | node (name : String) (kind : EntityKind)
  | edge (source target : String) (kind : LinkKind)
  deriving DecidableEq, Repr

/-- The name and the kind of the node that a statement draws. -/
def Statement.node? : Statement → Option (String × EntityKind)
  | .node name kind => some (name, kind)
  | .edge .. => none

/-- The ends and the kind of the link that a statement draws. -/
def Statement.edge? : Statement → Option (String × String × LinkKind)
  | .node .. => none
  | .edge source target kind => some (source, target, kind)

def Statement.text : Statement → String
  | .node name kind => nodeStatement { name, kind }
  | .edge source target kind => linkStatement { source, target, kind, line := 0 }

/-- The text of a drawing with the given statements. -/
def drawingText (statements : List Statement) : String :=
  "digraph Dependencies \x7b\n    rankdir=LR;\n    node [shape=box, style=filled];\n" ++
    String.join (statements.map Statement.text) ++ "\x7d\n"

/-- The statements for the nodes and links of a graph. -/
def DependencyGraph.statements (graph : DependencyGraph) : List Statement :=
  graph.nodes.values.map (fun node => .node node.name node.kind) ++
    graph.links.values.map fun link => .edge link.source link.target link.kind

theorem DependencyGraph.dot_eq (graph : DependencyGraph) :
    graph.dot = drawingText graph.statements := by
  apply String.toList_inj.mp
  unfold dot drawingText statements
  simp only [List.map_append, List.map_map, String.toList_append, String.toList_join,
    List.flatMap_append, List.append_assoc]
  rfl

/-! Names in quotes -/

/-- Reads a name up to its closing quote. A backslash stands for the character behind it. -/
def readName : List Char → Option (List Char × List Char)
  | [] => none
  | '"' :: rest => some ([], rest)
  | '\\' :: c :: rest => (readName rest).map fun (name, behind) => (c :: name, behind)
  | c :: rest => (readName rest).map fun (name, behind) => (c :: name, behind)

theorem readName_escaped (name rest : List Char) :
    readName (name.flatMap escapedChar ++ '"' :: rest) = some (name, rest) := by
  induction name with
  | nil => rfl
  | cons c name ih =>
    rw [List.flatMap_cons, List.append_assoc, escapedChar]
    by_cases backslash : c = '\\'
    · subst backslash
      simp [readName, ih]
    by_cases quote : c = '"'
    · subst quote
      simp [readName, ih]
    simp [backslash, quote, readName, ih]

def quoted (name : String) : List Char := '"' :: (name.toList.flatMap escapedChar ++ ['"'])

/-- A name in quotes is known from any text that begins with it. -/
theorem quoted_append_inj {first second : String} {rest other : List Char}
    (same : quoted first ++ rest = quoted second ++ other) : first = second ∧ rest = other := by
  simp only [quoted, List.cons_append, List.append_assoc, List.nil_append] at same
  have read := congrArg readName (List.tail_eq_of_cons_eq same)
  rwa [readName_escaped, readName_escaped, Option.some_inj, Prod.mk.injEq, String.toList_inj]
    at read

/-! What stands behind the names -/

/-- What a node statement has behind the name in its label. -/
def nodeEnding (kind : EntityKind) : List Char :=
  s!"\\n{kind.label}\", fillcolor={kind.color}];\n".toList

/-- What a link statement has behind its names. -/
def edgeEnding (kind : LinkKind) : List Char :=
  s!" [style={kind.style}, label=\"{kind.label}\"];\n".toList

theorem toList_node (name : String) (kind : EntityKind) :
    (Statement.node name kind).text.toList = "    ".toList ++ (quoted name ++
      (" [label=\"".toList ++ (name.toList.flatMap escapedChar ++ nodeEnding kind))) := by
  have shown (text : String) : toString text = text := rfl
  unfold Statement.text nodeStatement nodeEnding quoted escaped
  simp [shown]

theorem toList_edge (source target : String) (kind : LinkKind) :
    (Statement.edge source target kind).text.toList = "    ".toList ++ (quoted source ++
      (" -> ".toList ++ (quoted target ++ edgeEnding kind))) := by
  have shown (text : String) : toString text = text := rfl
  unfold Statement.text linkStatement edgeEnding quoted escaped
  simp [shown]

/-- Where no piece begins another, a text begins with one of them at most. -/
theorem piece_append_inj {α : Type} {piece : α → List Char}
    (apart : ∀ first second, piece first <+: piece second → first = second) {first second : α}
    {rest other : List Char} (same : piece first ++ rest = piece second ++ other) :
    first = second ∧ rest = other := by
  have equal : first = second := by
    have begun : piece first <+: piece second ++ other := ⟨rest, same⟩
    rcases List.prefix_or_prefix_of_prefix begun (List.prefix_append _ _) with shorter | longer
    · exact apart _ _ shorter
    · exact (apart _ _ longer).symm
  subst equal
  exact ⟨rfl, List.append_cancel_left same⟩

theorem nodeEnding_apart : ∀ first second : EntityKind,
    nodeEnding first <+: nodeEnding second → first = second := by
  intro first second
  cases first <;> cases second <;> decide

theorem edgeEnding_apart : ∀ first second : LinkKind,
    edgeEnding first <+: edgeEnding second → first = second := by
  intro first second
  cases first <;> cases second <;> decide

/-! Whole drawings -/

/-- A statement is known from any text that begins with it. -/
theorem Statement.text_append_inj {first second : Statement} {rest other : List Char}
    (same : first.text.toList ++ rest = second.text.toList ++ other) :
    first = second ∧ rest = other := by
  cases first with
  | node name kind =>
    cases second with
    | node name' kind' =>
      simp only [toList_node, List.append_assoc] at same
      obtain ⟨rfl, behind⟩ := quoted_append_inj (List.append_cancel_left same)
      have ending := List.append_cancel_left (List.append_cancel_left behind)
      obtain ⟨rfl, rfl⟩ := piece_append_inj nodeEnding_apart ending
      exact ⟨rfl, rfl⟩
    | edge source target kind' =>
      simp only [toList_node, toList_edge, List.append_assoc] at same
      obtain ⟨-, behind⟩ := quoted_append_inj (List.append_cancel_left same)
      simp at behind
  | edge source target kind =>
    cases second with
    | node name' kind' =>
      simp only [toList_node, toList_edge, List.append_assoc] at same
      obtain ⟨-, behind⟩ := quoted_append_inj (List.append_cancel_left same)
      simp at behind
    | edge source' target' kind' =>
      simp only [toList_edge, List.append_assoc] at same
      obtain ⟨rfl, behind⟩ := quoted_append_inj (List.append_cancel_left same)
      obtain ⟨rfl, ending⟩ := quoted_append_inj (List.append_cancel_left behind)
      obtain ⟨rfl, rfl⟩ := piece_append_inj edgeEnding_apart ending
      exact ⟨rfl, rfl⟩

theorem Statement.exists_text (statement : Statement) :
    ∃ rest, statement.text.toList = ' ' :: rest := by
  cases statement with
  | node name kind => exact ⟨_, toList_node name kind⟩
  | edge source target kind => exact ⟨_, toList_edge source target kind⟩

/-- Statements are known from their texts, one behind the other up to the closing brace. -/
theorem statements_inj {first second : List Statement}
    (same : first.flatMap (fun statement => statement.text.toList) ++ "\x7d\n".toList =
      second.flatMap (fun statement => statement.text.toList) ++ "\x7d\n".toList) :
    first = second := by
  induction first generalizing second with
  | nil =>
    cases second with
    | nil => rfl
    | cons statement rest =>
      obtain ⟨behind, text⟩ := statement.exists_text
      simp [text] at same
  | cons statement rest ih =>
    cases second with
    | nil =>
      obtain ⟨behind, text⟩ := statement.exists_text
      simp [text] at same
    | cons other more =>
      rw [List.flatMap_cons, List.flatMap_cons, List.append_assoc, List.append_assoc] at same
      obtain ⟨rfl, rested⟩ := Statement.text_append_inj same
      rw [ih rested]

/-- The statements of a drawing are known from its text. -/
theorem drawingText_injective : Function.Injective drawingText := by
  intro first second same
  have texts := congrArg String.toList same
  unfold drawingText at texts
  simp only [String.toList_append, String.toList_join, List.flatMap_map, List.append_assoc]
    at texts
  exact statements_inj (List.append_cancel_left texts)

namespace DependencyGraph

variable {graph other : DependencyGraph}

theorem filterMap_node_statements (graph : DependencyGraph) :
    graph.statements.filterMap Statement.node? =
      graph.nodes.values.map fun node => (node.name, node.kind) := by
  simp [statements, List.filterMap_append, List.filterMap_map, Function.comp_def, Statement.node?]

theorem filterMap_edge_statements (graph : DependencyGraph) :
    graph.statements.filterMap Statement.edge? =
      graph.links.values.map fun link => (link.source, link.target, link.kind) := by
  simp [statements, List.filterMap_append, List.filterMap_map, Function.comp_def, Statement.edge?]

theorem statements_eq (graph : DependencyGraph) :
    graph.statements =
      (graph.statements.filterMap Statement.node?).map (fun (name, kind) => .node name kind) ++
      (graph.statements.filterMap Statement.edge?).map fun (source, target, kind) =>
        .edge source target kind := by
  rw [filterMap_node_statements, filterMap_edge_statements, List.map_map, List.map_map]
  rfl

/-- A drawing loses nothing: two graphs have the same drawing exactly if they list the same names
with the same kinds as nodes, and the same ends with the same kinds as links. -/
theorem dot_lossless : graph.dot = other.dot ↔
    graph.nodes.values.map (fun node => (node.name, node.kind)) =
        other.nodes.values.map (fun node => (node.name, node.kind)) ∧
      graph.links.values.map (fun link => (link.source, link.target, link.kind)) =
        other.links.values.map fun link => (link.source, link.target, link.kind) := by
  rw [dot_eq, dot_eq, drawingText_injective.eq_iff, ← filterMap_node_statements,
    ← filterMap_node_statements, ← filterMap_edge_statements, ← filterMap_edge_statements]
  constructor
  · intro same
    rw [same]
    exact ⟨rfl, rfl⟩
  · rintro ⟨nodes, edges⟩
    rw [graph.statements_eq, other.statements_eq, nodes, edges]

end DependencyGraph

end PlcAudit.Graph
