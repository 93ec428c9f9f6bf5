import PlcAudit.Proofs.Graph.Drawing
import PlcAudit.Proofs.Graph.Merge

/-!
Spellings in a drawing. Names are the same in any letter case, but a drawing tells their spellings
apart. A node is spelled as in its first declaration, or as it is first mentioned where it is not
declared at all; a link is spelled as it was first added. So each end of a link belongs to a node
that is drawn, and is drawn at this node exactly where the two spellings agree.
-/

namespace PlcAudit.Graph.DependencyGraph

/-! Graphs and what they came of -/

/-- How a graph came about: by additions, and by merging other graphs. -/
inductive History where
  | start
  | add (before : History) (addition : Addition)
  | merge (before other : History)
  deriving Repr

def History.graph : History → DependencyGraph
  | .start => {}
  | .add before addition => before.graph.add addition
  | .merge before other => before.graph.merge other.graph

/-- All that was added to a graph, or to a graph that was merged into it. -/
def History.additions : History → List Addition
  | .start => []
  | .add before addition => before.additions ++ [addition]
  | .merge before other => before.additions ++ other.additions

theorem History.graph_eq (history : History) : history.graph = build history.additions := by
  induction history with
  | start => rfl
  | add before addition ih => rw [graph, additions, build_concat, ih]
  | merge before other ih also => rw [graph, additions, build_append, ih, also]

/-! The node of a name -/

/-- The first declaration among entities of one name, or the first mention if there is none. -/
def preferred (entities : List Entity) : Option Entity :=
  (entities.find? fun entity => entity.kind != .unknown).or entities.head?

theorem preferred_of_known {entities : List Entity} {entity : Entity}
    (found : entities.find? (fun entity => entity.kind != .unknown) = some entity) :
    preferred entities = some entity := by
  rw [preferred, found, Option.some_or]

theorem preferred_of_unknown {entities : List Entity}
    (none : entities.find? (fun entity => entity.kind != .unknown) = none) :
    preferred entities = entities.head? := by
  rw [preferred, none, Option.none_or]

theorem preferred_append (first second : List Entity) :
    preferred (first ++ second) =
      (preferred first).merge (preferKnown Entity.kind) (preferred second) := by
  have joined : (first ++ second).find? (fun entity => entity.kind != .unknown) =
      (first.find? fun entity => entity.kind != .unknown).or
        (second.find? fun entity => entity.kind != .unknown) := List.find?_append
  cases known : first.find? fun entity => entity.kind != .unknown with
  | some entity =>
    have declared : entity.kind ≠ .unknown := by simpa using List.find?_some known
    rw [known, Option.some_or] at joined
    rw [preferred_of_known joined, preferred_of_known known]
    cases preferred second with
    | none => rfl
    | some other => simp [preferKnown, declared]
  | none =>
    rw [known, Option.none_or] at joined
    rw [preferred_of_unknown known]
    cases later : second.find? fun entity => entity.kind != .unknown with
    | some entity =>
      have declared : entity.kind ≠ .unknown := by simpa using List.find?_some later
      rw [preferred_of_known (joined.trans later), preferred_of_known later]
      cases first with
      | nil => rfl
      | cons mention rest =>
        have mentioned : mention.kind = .unknown := by
          simpa using List.find?_eq_none.mp known mention List.mem_cons_self
        simp [preferKnown, mentioned, declared]
    | none =>
      rw [preferred_of_unknown (joined.trans later), preferred_of_unknown later, List.head?_append]
      cases first with
      | nil => cases second <;> rfl
      | cons mention rest =>
        cases second with
        | nil => rfl
        | cons other more =>
          have unknown : other.kind = .unknown := by
            simpa using List.find?_eq_none.mp later other List.mem_cons_self
          simp [preferKnown_unknown _ unknown]

/-- What an addition says about names. The ends of a link are mentioned, and declared nowhere. -/
def Addition.entities : Addition → List Entity
  | .node declared => [declared]
  | .link added =>
    [{ name := added.source, kind := .unknown }, { name := added.target, kind := .unknown }]

/-- All that additions say about a name, in any spelling. -/
def mentions (additions : List Addition) (name : String) : List Entity :=
  (additions.flatMap Addition.entities).filter fun entity => Text.sameName entity.name name

theorem sameName_iff_key {left right : String} :
    Text.sameName left right = true ↔ key left = key right :=
  beq_iff_eq

theorem mentions_append (first second : List Addition) (name : String) :
    mentions (first ++ second) name = mentions first name ++ mentions second name := by
  rw [mentions, List.flatMap_append, List.filter_append]
  rfl

theorem preferred_mentions_node (declared : Entity) (name : String) :
    preferred (mentions [.node declared] name) =
      if key name = key declared.name then some declared else none := by
  by_cases same : key name = key declared.name
  · have equal := sameName_iff_key.mpr same.symm
    cases known : declared.kind != .unknown <;>
      simp [preferred, mentions, Addition.entities, known, equal, same]
  · have apart : Text.sameName declared.name name ≠ true :=
      fun equal => same (sameName_iff_key.mp equal).symm
    simp [preferred, mentions, Addition.entities, apart, same]

/-- The node of a name is made from what the additions say about the name. -/
theorem find?_nodes_build (additions : List Addition) (name : String) :
    (build additions).nodes.find? (key name) = preferred (mentions additions name) := by
  induction additions using List.reverseRecOn with
  | nil => rfl
  | append_singleton additions addition ih =>
    have alone : (DependencyGraph.add {} addition).nodes.find? (key name) =
        preferred (mentions [addition] name) := by
      cases addition with
      | node declared =>
        rw [add, find?_addNode, Table.find?_empty, Option.merge_none_left,
          preferred_mentions_node]
      | link added =>
        have ends : mentions [.link added] name =
            mentions [.node { name := added.source, kind := .unknown }] name ++
              mentions [.node { name := added.target, kind := .unknown }] name :=
          mentions_append [.node _] [.node _] name
        rw [add, nodes_addLink, find?_require, find?_require, Table.find?_empty,
          Option.merge_none_left, ends, preferred_append, preferred_mentions_node,
          preferred_mentions_node]
    rw [build_concat, find?_nodes_add, ih, alone, ← preferred_append, ← mentions_append]

/-- How a name is spelled: as in its first declaration among the additions, or as in its first
mention if it is not declared. -/
def spelledIn (additions : List Addition) (name : String) : String :=
  ((preferred (mentions additions name)).map Entity.name).getD name

/-! The link between two nodes -/

def Addition.link? : Addition → Option Link
  | .node _ => none
  | .link added => some added

/-- The first link of a kind between two nodes. -/
def firstLink? (additions : List Addition) (place : LinkKey) : Option Link :=
  (additions.filterMap Addition.link?).find? fun link =>
    linkKey link.source link.target link.kind == place

/-- What a drawing shows of a link is what its first addition says. -/
theorem edge_links_build (additions : List Addition) (place : LinkKey) :
    ((build additions).links.find? place).map (fun link => (link.source, link.target, link.kind)) =
      (firstLink? additions place).map fun link => (link.source, link.target, link.kind) := by
  induction additions using List.reverseRecOn with
  | nil => rfl
  | append_singleton additions addition ih =>
    have merged (first second : Option Link) :
        (first.merge Link.earliest second).map (fun link => (link.source, link.target, link.kind)) =
          (first.map fun link => (link.source, link.target, link.kind)).or
            (second.map fun link => (link.source, link.target, link.kind)) := by
      cases first <;> cases second <;> rfl
    have alone : (DependencyGraph.add {} addition).links.find? place =
        firstLink? [addition] place := by
      cases addition with
      | node declared => rfl
      | link added =>
        rw [add, find?_addLink]
        by_cases same : place = linkKey added.source added.target added.kind
        · simp [firstLink?, Addition.link?, same]
        · simp [firstLink?, Addition.link?, same, Ne.symm same]
    rw [build_concat, find?_links_add, merged, ih, alone, ← Option.map_or, firstLink?, firstLink?,
      firstLink?, ← List.find?_append, ← List.filterMap_append]

/-! Drawn names -/

section

variable {graph : DependencyGraph}

theorem Placed.node_drawn_iff (placed : graph.Placed) (name : String) :
    (∃ kind, .node name kind ∈ graph.statements) ↔
      ∃ node, graph.nodes.find? (key name) = some node ∧ node.name = name := by
  have drawn (kind : EntityKind) : Statement.node name kind ∈ graph.statements ↔
      ∃ node ∈ graph.nodes.values, node.name = name ∧ node.kind = kind := by
    simp [statements]
  simp only [drawn, Table.mem_values_iff]
  constructor
  · rintro ⟨kind, node, ⟨stored, found⟩, rfl, rfl⟩
    rw [placed.nodes stored node found]
    exact ⟨node, found, rfl⟩
  · rintro ⟨node, found, same⟩
    exact ⟨node.kind, node, ⟨_, found⟩, same, rfl⟩

theorem Placed.link_of_drawn (placed : graph.Placed) {source target : String} {kind : LinkKind}
    (member : .edge source target kind ∈ graph.statements) :
    ∃ line, graph.links.find? (linkKey source target kind) =
      some { source, target, kind, line } := by
  obtain ⟨link, listed, same⟩ : ∃ link ∈ graph.links.values,
      link.source = source ∧ link.target = target ∧ link.kind = kind := by
    simpa [statements] using member
  obtain ⟨rfl, rfl, rfl⟩ := same
  obtain ⟨place, found⟩ := (Table.mem_values_iff ..).mp listed
  rw [placed.links place link found]
  exact ⟨link.line, found⟩

end

/-- The name of a node that is there is spelled as the additions spell it. -/
theorem find?_eq_spelledIn {additions : List Addition} {name : String}
    (known : key name ∈ (build additions).nodes.keys) :
    ∃ node, (build additions).nodes.find? (key name) = some node ∧
      node.name = spelledIn additions name := by
  obtain ⟨node, found⟩ := Table.find?_of_mem_keys known
  refine ⟨node, found, ?_⟩
  rw [find?_nodes_build] at found
  rw [spelledIn, found, Option.map_some, Option.getD_some]

/-- The ends of a link in a drawing are spelled as when the link was first added, and their nodes
as they were first declared, or mentioned if they are not declared. Both ends belong to nodes that
are drawn, in some spelling; an end is spelled like a node exactly where it is spelled like its
own. -/
theorem drawn_ends (history : History) {statements : List Statement}
    (drawn : history.graph.dot = drawingText statements) {source target : String}
    {kind : LinkKind} (member : .edge source target kind ∈ statements) :
    (∃ line, firstLink? history.additions (linkKey source target kind) =
      some { source, target, kind, line }) ∧
    ∀ name ∈ [source, target],
      (∃ kind, .node (spelledIn history.additions name) kind ∈ statements) ∧
      Text.sameName (spelledIn history.additions name) name = true ∧
      ((∃ kind, .node name kind ∈ statements) ↔ spelledIn history.additions name = name) := by
  rw [History.graph_eq, dot_eq, drawingText_injective.eq_iff] at drawn
  subst drawn
  generalize history.additions = additions at member ⊢
  have built := built_build additions
  obtain ⟨line, found⟩ := built.placed.link_of_drawn member
  have ends := built.endsKnown _ (Table.mem_keys_of_find? found)
  refine ⟨?_, fun name isEnd => ?_⟩
  · have first := edge_links_build additions (linkKey source target kind)
    rw [found, Option.map_some] at first
    obtain ⟨link, added, same⟩ := Option.map_eq_some_iff.mp first.symm
    obtain ⟨rfl, rfl, rfl⟩ : link.source = source ∧ link.target = target ∧ link.kind = kind := by
      simpa using same
    exact ⟨link.line, added⟩
  · have known : key name ∈ (build additions).nodes.keys := by
      simp only [List.mem_cons, List.not_mem_nil, or_false] at isEnd
      rcases isEnd with rfl | rfl
      · exact ends.1
      · exact ends.2
    obtain ⟨node, present, spelled⟩ := find?_eq_spelledIn known
    have same : key (spelledIn additions name) = key name := by
      rw [← spelled]
      exact built.placed.nodes _ node present
    refine ⟨?_, sameName_iff_key.mpr same, ?_⟩
    · rw [built.placed.node_drawn_iff, same]
      exact ⟨node, present, spelled⟩
    · rw [built.placed.node_drawn_iff, present, ← spelled]
      simp

/-- A program that is declared, and a call in it that spells its name in another way. -/
def respelledCaller : History :=
  .merge (.add .start (.node { name := "Main", kind := .program }))
    (.add .start (.link ⟨"MAIN", "Scale", .call, 4⟩))

theorem drawn_ends_respelledCaller :
    .edge "MAIN" "Scale" .call ∈ respelledCaller.graph.statements ∧
      (∃ kind, .node "Main" kind ∈ respelledCaller.graph.statements) ∧
      ∃ kind, .node "Scale" kind ∈ respelledCaller.graph.statements := by
  have member : .edge "MAIN" "Scale" .call ∈ respelledCaller.graph.statements := by decide
  obtain ⟨-, ends⟩ := drawn_ends respelledCaller (dot_eq _) member
  obtain ⟨caller, -, -⟩ := ends "MAIN" (by decide)
  obtain ⟨callee, -, -⟩ := ends "Scale" (by decide)
  exact ⟨member, caller, callee⟩

/-- An end that is spelled in another way than its node stands for no node of the drawing. -/
theorem respelledCaller_undrawn :
    ∃ statements, respelledCaller.graph.dot = drawingText statements ∧
      .edge "MAIN" "Scale" .call ∈ statements ∧ ∀ kind, .node "MAIN" kind ∉ statements := by
  refine ⟨_, dot_eq _, by decide, ?_⟩
  intro kind
  cases kind <;> decide

end PlcAudit.Graph.DependencyGraph
