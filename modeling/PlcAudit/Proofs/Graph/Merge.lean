import PlcAudit.Proofs.Graph.Dependency

/-!
Merging graphs of dependencies. What a merged graph holds under a key is joined from what the two
graphs hold there, so that merging graphs is the same as adding what they were made of, one after
the other.
-/

namespace PlcAudit.Graph

/-- Of two declarations of a name, the first that is not unknown, or else the first. -/
def preferKnown {α : Type} (kindOf : α → EntityKind) (first second : α) : α :=
  if kindOf first == .unknown && kindOf second != .unknown then second else first

theorem preferKnown_unknown {α : Type} {kindOf : α → EntityKind} (first : α) {second : α}
    (unknown : kindOf second = .unknown) : preferKnown kindOf first second = first := by
  simp [preferKnown, unknown]

instance {α : Type} (kindOf : α → EntityKind) : Std.Associative (preferKnown kindOf) where
  assoc := by
    intro first second third
    by_cases one : kindOf first = .unknown <;> by_cases two : kindOf second = .unknown <;>
      by_cases three : kindOf third = .unknown <;> simp [preferKnown, one, two, three]

instance {α : Type} (kindOf : α → EntityKind) : Std.IdempotentOp (preferKnown kindOf) where
  idempotent := by
    intro node
    simp [preferKnown]

/-- Of two links with the same ends, the spelling of the first and the smaller line. -/
def Link.earliest (first second : Link) : Link :=
  { first with line := min first.line second.line }

instance : Std.Associative Link.earliest where
  assoc := by
    intro first second third
    simp [Link.earliest, Nat.min_assoc]

instance : Std.IdempotentOp Link.earliest where
  idempotent := by
    intro link
    simp [Link.earliest]

/-- Where every step joins to the view of a state what it makes of the start, so do all steps. -/
theorem view_foldl {σ α β : Type} {join : β → β → β} {nothing : β} [Std.Associative join]
    [Std.LawfulIdentity join nothing] (view : σ → β) {step : σ → α → σ} {start : σ}
    (fresh : view start = nothing)
    (one : ∀ state item, view (step state item) = join (view state) (view (step start item)))
    (state : σ) (items : List α) :
    view (items.foldl step state) = join (view state) (view (items.foldl step start)) := by
  suffices general : ∀ left right part, view left = join part (view right) →
      view (items.foldl step left) = join part (view (items.foldl step right)) by
    apply general
    rw [fresh]
    exact (Std.LawfulRightIdentity.right_id _).symm
  intro left right part same
  induction items generalizing left right with
  | nil => exact same
  | cons item rest ih =>
    apply ih
    rw [one left, one right, same]
    exact Std.Associative.assoc ..

namespace DependencyGraph

variable {graph other third : DependencyGraph}

/-- What can be added to a graph. -/
inductive Addition where
  | node (node : Entity)
  | link (link : Link)
  deriving DecidableEq, Repr

def add (graph : DependencyGraph) : Addition → DependencyGraph
  | .node node => graph.addNode node
  | .link link => graph.addLink link

/-- The graph that additions make, one after the other. -/
def build (additions : List Addition) : DependencyGraph := additions.foldl add {}

theorem eq_of_find? (nodes : ∀ node, graph.nodes.find? node = other.nodes.find? node)
    (links : ∀ link, graph.links.find? link = other.links.find? link) : graph = other := by
  have sameNodes := Table.eq_of_find? nodes
  have sameLinks := Table.eq_of_find? links
  cases graph
  cases other
  simp_all

/-! What an addition does to the look-ups -/

theorem find?_addNode (graph : DependencyGraph) (node : Entity) (name : String) :
    (graph.addNode node).nodes.find? name = (graph.nodes.find? name).merge
      (preferKnown Entity.kind) (if name = key node.name then some node else none) := by
  apply Table.find?_alter_merge
  intro present
  cases present <;> rfl

theorem nodes_addLink (graph : DependencyGraph) (link : Link) :
    (graph.addLink link).nodes = ((graph.require link.source).require link.target).nodes :=
  rfl

theorem find?_require (graph : DependencyGraph) (required name : String) :
    (graph.require required).nodes.find? name = (graph.nodes.find? name).merge
      (preferKnown Entity.kind)
      (if name = key required then some { name := required, kind := .unknown } else none) :=
  find?_addNode ..

theorem find?_addLink (graph : DependencyGraph) (link : Link) (place : LinkKey) :
    (graph.addLink link).links.find? place = (graph.links.find? place).merge Link.earliest
      (if place = linkKey link.source link.target link.kind then some link else none) := by
  apply Table.find?_alter_merge
  intro present
  cases present <;> rfl

/-! Graphs whose nodes and links stand where their names say -/

/-- Nodes and links stand under the keys of their names. -/
structure Placed (graph : DependencyGraph) : Prop where
  nodes : graph.nodes.All fun name node => key node.name = name
  links : graph.links.All fun place link => linkKey link.source link.target link.kind = place

theorem Placed.addNode (placed : graph.Placed) (node : Entity) : (graph.addNode node).Placed := by
  refine ⟨placed.nodes.alter ?_, placed.links⟩
  split
  · rfl
  · rename_i existing found
    split
    · rfl
    · exact placed.nodes _ _ found

theorem Placed.addLink (placed : graph.Placed) (link : Link) : (graph.addLink link).Placed := by
  have required : ((graph.require link.source).require link.target).Placed :=
    (placed.addNode _).addNode _
  refine ⟨required.nodes, required.links.alter ?_⟩
  split
  · rfl
  · rename_i existing found
    have stays := required.links _ existing found
    exact stays

theorem Placed.merge (placed : graph.Placed) (other : DependencyGraph) :
    (graph.merge other).Placed := by
  apply List.foldlRecOn
  · exact List.foldlRecOn _ _ placed fun _ placed node _ => placed.addNode node
  · exact fun _ placed link _ => placed.addLink link

theorem Built.placed (built : graph.Built) : graph.Placed := by
  induction built with
  | empty => exact ⟨Table.all_empty, Table.all_empty⟩
  | addNode _ node placed => exact placed.addNode node
  | addLink _ link placed => exact placed.addLink link
  | merge _ _ placed _ => exact placed.merge _

/-! Merged graphs by their look-ups -/

theorem find?_nodes_foldl_addNode (placed : other.Placed) (graph : DependencyGraph)
    (name : String) :
    (other.nodes.values.foldl addNode graph).nodes.find? name =
      (graph.nodes.find? name).merge (preferKnown Entity.kind) (other.nodes.find? name) := by
  apply other.nodes.look_foldl_values fun (graph : DependencyGraph) name => graph.nodes.find? name
  intro graph stored node found name
  obtain rfl := placed.nodes stored node found
  exact find?_addNode ..

theorem links_foldl_addNode (nodes : List Entity) (graph : DependencyGraph) :
    (nodes.foldl addNode graph).links = graph.links := by
  induction nodes generalizing graph with
  | nil => rfl
  | cons node rest ih => exact ih (graph.addNode node)

theorem find?_require_of_mem {required : String} (present : key required ∈ graph.nodes.keys)
    (name : String) : (graph.require required).nodes.find? name = graph.nodes.find? name := by
  rw [find?_require]
  split
  · rename_i same
    obtain ⟨existing, found⟩ := Table.find?_of_mem_keys present
    rw [same, found, Option.merge_some_some, preferKnown_unknown _ rfl]
  · rw [Option.merge_none_right]

/-- A link between nodes that are there adds none. -/
theorem nodes_addLink_of_mem {link : Link} (source : key link.source ∈ graph.nodes.keys)
    (target : key link.target ∈ graph.nodes.keys) : (graph.addLink link).nodes = graph.nodes := by
  apply Table.eq_of_find?
  intro name
  rw [nodes_addLink, find?_require_of_mem, find?_require_of_mem source]
  exact (mem_nodes_addNode ..).mpr (.inr target)

theorem find?_nodes_merge (placed : other.Placed) (known : other.EndsKnown)
    (graph : DependencyGraph) (name : String) :
    (graph.merge other).nodes.find? name =
      (graph.nodes.find? name).merge (preferKnown Entity.kind) (other.nodes.find? name) := by
  have joined := find?_nodes_foldl_addNode placed graph
  rw [← joined, merge]
  generalize other.nodes.values.foldl addNode graph = base at joined
  have present {node : String} (member : node ∈ other.nodes.keys) : node ∈ base.nodes.keys := by
    rw [← Table.contains_iff_mem_keys, Table.contains] at member ⊢
    rw [joined, Option.isSome_merge, member, Bool.or_true]
  -- the ends of all links that follow are nodes already
  suffices same : (other.links.values.foldl addLink base).nodes = base.nodes by rw [same]
  refine List.foldlRecOn (motive := fun grown : DependencyGraph => grown.nodes = base.nodes)
    _ _ rfl ?_
  intro grown same link member
  obtain ⟨place, found⟩ := (Table.mem_values_iff ..).mp member
  have ends := known place (Table.mem_keys_of_find? found)
  obtain rfl := placed.links place link found
  rw [nodes_addLink_of_mem, same]
  · rw [same]
    exact present ends.1
  · rw [same]
    exact present ends.2

theorem find?_links_foldl_addLink (placed : other.Placed) (graph : DependencyGraph)
    (place : LinkKey) :
    (other.links.values.foldl addLink graph).links.find? place =
      (graph.links.find? place).merge Link.earliest (other.links.find? place) := by
  apply other.links.look_foldl_values fun (graph : DependencyGraph) place => graph.links.find? place
  intro graph stored link found place
  obtain rfl := placed.links stored link found
  exact find?_addLink ..

theorem find?_links_merge (placed : other.Placed) (graph : DependencyGraph) (place : LinkKey) :
    (graph.merge other).links.find? place =
      (graph.links.find? place).merge Link.earliest (other.links.find? place) := by
  rw [merge, find?_links_foldl_addLink placed, links_foldl_addNode]

/-! Merging and adding -/

theorem find?_nodes_add (graph : DependencyGraph) (addition : Addition) (name : String) :
    (graph.add addition).nodes.find? name = (graph.nodes.find? name).merge
      (preferKnown Entity.kind) ((DependencyGraph.add {} addition).nodes.find? name) := by
  cases addition with
  | node node => simp only [add, find?_addNode, Table.find?_empty, Option.merge_none_left]
  | link link =>
    simp only [add, nodes_addLink, find?_require, Table.find?_empty, Option.merge_none_left]
    exact (Option.associative_merge (preferKnown Entity.kind)).assoc ..

theorem find?_links_add (graph : DependencyGraph) (addition : Addition) (place : LinkKey) :
    (graph.add addition).links.find? place = (graph.links.find? place).merge Link.earliest
      ((DependencyGraph.add {} addition).links.find? place) := by
  cases addition with
  | node node => exact (Option.merge_none_right ..).symm
  | link link => simp only [add, find?_addLink, Table.find?_empty, Option.merge_none_left]

theorem Built.add (built : graph.Built) (addition : Addition) : (graph.add addition).Built := by
  cases addition with
  | node node => exact built.addNode node
  | link link => exact built.addLink link

theorem built_build (additions : List Addition) : (build additions).Built :=
  List.foldlRecOn _ _ .empty fun _ built addition _ => built.add addition

/-- Merging what additions make is making them. -/
theorem merge_build (graph : DependencyGraph) (additions : List Addition) :
    graph.merge (build additions) = additions.foldl add graph := by
  have built := built_build additions
  apply eq_of_find?
  · intro name
    rw [find?_nodes_merge built.placed built.endsKnown]
    exact (view_foldl (fun graph : DependencyGraph => graph.nodes.find? name) rfl
      (fun graph addition => find?_nodes_add graph addition name) graph additions).symm
  · intro place
    rw [find?_links_merge built.placed]
    exact (view_foldl (fun graph : DependencyGraph => graph.links.find? place) rfl
      (fun graph addition => find?_links_add graph addition place) graph additions).symm

theorem build_append (first second : List Addition) :
    build (first ++ second) = (build first).merge (build second) := by
  rw [merge_build, build, List.foldl_append, build]

theorem build_concat (additions : List Addition) (addition : Addition) :
    build (additions ++ [addition]) = (build additions).add addition := by
  rw [build, List.foldl_append, build]
  rfl

/-- Every graph that is built comes of additions alone. -/
theorem Built.exists_additions (built : graph.Built) : ∃ additions, build additions = graph := by
  induction built with
  | empty => exact ⟨[], rfl⟩
  | addNode _ node made =>
    obtain ⟨additions, rfl⟩ := made
    exact ⟨_, build_concat additions (.node node)⟩
  | addLink _ link made =>
    obtain ⟨additions, rfl⟩ := made
    exact ⟨_, build_concat additions (.link link)⟩
  | merge _ _ made also =>
    obtain ⟨additions, rfl⟩ := made
    obtain ⟨others, rfl⟩ := also
    exact ⟨additions ++ others, build_append additions others⟩

theorem Built.merge_self (built : graph.Built) : graph.merge graph = graph := by
  apply eq_of_find?
  · intro name
    rw [find?_nodes_merge built.placed built.endsKnown]
    exact Std.IdempotentOp.idempotent _
  · intro place
    rw [find?_links_merge built.placed]
    exact Std.IdempotentOp.idempotent _

theorem Built.merge_assoc (built : graph.Built) (also : other.Built) (more : third.Built) :
    (graph.merge other).merge third = graph.merge (other.merge third) := by
  obtain ⟨first, rfl⟩ := built.exists_additions
  obtain ⟨second, rfl⟩ := also.exists_additions
  obtain ⟨last, rfl⟩ := more.exists_additions
  rw [← build_append, ← build_append, ← build_append, ← build_append, List.append_assoc]

/-- The line of a merged link does not depend on the order of the graphs. -/
theorem line_merge_comm (placed : graph.Placed) (also : other.Placed) (place : LinkKey) :
    ((graph.merge other).links.find? place).map Link.line =
      ((other.merge graph).links.find? place).map Link.line := by
  rw [find?_links_merge also, find?_links_merge placed]
  cases graph.links.find? place <;> cases other.links.find? place <;>
    simp [Link.earliest, Nat.min_comm]

/-- Merging what two lists of additions make is making both lists, one after the other. So merging
is associative, and a graph adds nothing to itself. The order of two graphs matters to declarations
and spellings only: nodes, links and the lines of links are the same in both orders. -/
theorem merge_fragments (built : graph.Built) (also : other.Built) (more : third.Built) :
    (∀ first second, (build first).merge (build second) = build (first ++ second)) ∧
    (graph.merge other).merge third = graph.merge (other.merge third) ∧
    graph.merge graph = graph ∧
    (graph.merge other).nodes.keys = (other.merge graph).nodes.keys ∧
    (graph.merge other).links.keys = (other.merge graph).links.keys ∧
    ∀ place, ((graph.merge other).links.find? place).map Link.line =
      ((other.merge graph).links.find? place).map Link.line := by
  have lines := line_merge_comm built.placed also.placed
  refine ⟨fun first second => (build_append first second).symm, built.merge_assoc also more,
    built.merge_self, ?_, ?_, lines⟩
  · apply Table.keys_eq_of_isSome
    intro name
    rw [find?_nodes_merge also.placed also.endsKnown,
      find?_nodes_merge built.placed built.endsKnown, Option.isSome_merge, Option.isSome_merge,
      Bool.or_comm]
  · apply Table.keys_eq_of_isSome
    intro place
    simpa using congrArg Option.isSome (lines place)

/-- A call of a function that is declared nowhere. -/
def undeclaredCall : List Addition := [.link ⟨"main", "scale", .call, 7⟩]

/-- The declaration of the function, and an earlier call of it. -/
def declaredCall : List Addition :=
  [.node { name := "Scale", kind := .function }, .link ⟨"Main", "Scale", .call, 3⟩]

theorem merge_fragments_declaredCall :
    ((build undeclaredCall).merge (build declaredCall)).node? "scale" =
        some { name := "Scale", kind := .function } ∧
      (((build undeclaredCall).merge (build declaredCall)).links.find?
        ⟨"MAIN", "SCALE", .call⟩) = some ⟨"main", "scale", .call, 3⟩ ∧
      (((build declaredCall).merge (build undeclaredCall)).links.find?
        ⟨"MAIN", "SCALE", .call⟩).map Link.line = some 3 := by
  have built : (build undeclaredCall).Built := Built.empty.addLink _
  have also : (build declaredCall).Built := (Built.empty.addNode _).addLink _
  obtain ⟨join, _, _, _, _, lines⟩ := merge_fragments built also Built.empty
  rw [← lines, join]
  decide

end DependencyGraph

end PlcAudit.Graph
