import PlcAudit.Graph.Call
import PlcAudit.Proofs.Graph.Depth

/-!
Call graphs as they are built. Callers and callees are nodes under the keys of their names, so that
the depth of calls is that of a longest chain of calls, or a cycle of calls can be reached.
-/

namespace PlcAudit.Graph.CallGraph

open Relation

/-- The call graphs that come of adding nodes, calls and other such graphs. -/
inductive Built : CallGraph → Prop where
  | empty : Built {}
  | addNode (built : Built graph) (name : String) (kind : EntityKind) (file : Option String) :
      Built (graph.addNode name kind file)
  | addCall (built : Built graph) (caller callee : String) (site : Site) :
      Built (graph.addCall caller callee site)
  | merge (built : Built graph) (also : Built other) : Built (graph.merge other)

variable {graph : CallGraph}

def Calls (graph : CallGraph) (caller callee : String) : Prop :=
  graph.edges.contains ⟨caller, callee⟩ = true

instance (graph : CallGraph) (caller callee : String) : Decidable (graph.Calls caller callee) :=
  inferInstanceAs (Decidable (_ = true))

/-- Both ends of every edge are nodes, and nodes stand under keys of names. -/
structure Known (graph : CallGraph) : Prop where
  ends : ∀ edge ∈ graph.edges.keys, edge.first ∈ graph.nodes.keys ∧ edge.second ∈ graph.nodes.keys
  named : ∀ node ∈ graph.nodes.keys, ∃ name, node = key name

/-- More nodes under keys of names do no harm. -/
theorem Known.grow {nodes : Table String CallNode} (known : graph.Known)
    (kept : graph.nodes.keys ⊆ nodes.keys) (named : ∀ node ∈ nodes.keys, ∃ name, node = key name) :
    Known { graph with nodes } where
  ends := fun edge member => (known.ends edge member).imp (fun first => kept first)
    fun second => kept second
  named := named

/-- A node that is stored under the key of a name keeps the graph as it should be. -/
theorem Known.alter (known : graph.Known) {nodeKey : String} (named : ∃ name, nodeKey = key name)
    (value : Option CallNode → CallNode) :
    Known { graph with nodes := graph.nodes.alter nodeKey value } := by
  apply known.grow
  · exact fun node member => (Table.mem_keys_alter ..).mpr (.inr member)
  · intro node member
    rcases (Table.mem_keys_alter ..).mp member with same | old
    · exact same ▸ named
    · exact known.named node old

theorem Known.addNode (known : graph.Known) (name : String) (kind : EntityKind)
    (file : Option String) : (graph.addNode name kind file).Known :=
  known.alter ⟨name, rfl⟩ _

theorem mem_nodes_addNode (graph : CallGraph) (name : String) (kind : EntityKind)
    (file : Option String) (node : String) :
    node ∈ (graph.addNode name kind file).nodes.keys ↔ node = key name ∨ node ∈ graph.nodes.keys :=
  Table.mem_keys_alter ..

theorem Known.addCall (known : graph.Known) (caller callee : String) (site : Site) :
    (graph.addCall caller callee site).Known := by
  have both := (known.addNode caller .unknown none).addNode callee .unknown none
  have second : key callee ∈ ((graph.addNode caller .unknown none).addNode callee .unknown
      none).nodes.keys := (mem_nodes_addNode ..).mpr (.inl rfl)
  have first : key caller ∈ ((graph.addNode caller .unknown none).addNode callee .unknown
      none).nodes.keys :=
    (mem_nodes_addNode ..).mpr (.inr ((mem_nodes_addNode ..).mpr (.inl rfl)))
  simp only [CallGraph.addCall]
  generalize (graph.addNode caller .unknown none).addNode callee .unknown none = grown
    at both first second ⊢
  split
  · exact both
  · refine ⟨fun edge member => ?_, by simpa using both.named⟩
    rw [Table.keys_modify]
    rcases (Table.mem_keys_alter ..).mp member with same | old
    · exact same ▸ ⟨first, second⟩
    · exact both.ends edge old

theorem Known.mergeEdge (known : graph.Known) (edge : CallEdge) : (graph.mergeEdge edge).Known :=
  List.foldlRecOn _ _ known fun _ known site _ => known.addCall edge.caller edge.callee site

theorem Known.merge (known : graph.Known) {other : CallGraph} (also : other.Known) :
    (graph.merge other).Known := by
  apply List.foldlRecOn
  · apply List.foldlRecOn _ _ known
    intro graph known entry member
    exact known.alter (also.named entry.1 (List.mem_map_of_mem member)) _
  · exact fun graph known edge _ => known.mergeEdge edge

theorem Built.known (built : graph.Built) : graph.Known := by
  induction built with
  | empty => exact ⟨fun _ member => absurd member List.not_mem_nil,
      fun _ member => absurd member List.not_mem_nil⟩
  | addNode _ name kind file known => exact known.addNode name kind file
  | addCall _ caller callee site known => exact known.addCall caller callee site
  | merge _ _ known also => exact known.merge also

theorem edge_adjacency (graph : CallGraph) : graph.adjacency.Edge = graph.Calls := by
  funext caller callee
  apply propext
  simp only [Adjacency.Edge, adjacency, List.mem_map, List.mem_filter, Calls,
    Table.contains_iff_mem_keys]
  constructor
  · rintro ⟨⟨first, second⟩, ⟨member, same⟩, rfl⟩
    obtain rfl : first = caller := by simpa using same
    exact member
  · exact fun member => ⟨_, ⟨member, by simp⟩, rfl⟩

theorem Known.closed (known : graph.Known) : graph.adjacency.Closed := by
  intro caller callee step
  rw [edge_adjacency] at step
  exact (known.ends _ ((Table.contains_iff_mem_keys ..).mp step)).2

/-! Depths of calls -/

theorem depthFrom?_eq_none_iff (graph : CallGraph) (name : String) :
    graph.depthFrom? name = none ↔ graph.nodes.contains (key name) = false := by
  simp [depthFrom?]

theorem depthFrom?_of_ok {name : String} {depth : Nat}
    (present : graph.nodes.contains (key name) = true)
    (found : graph.adjacency.depthFrom (key name) = .ok depth) :
    graph.depthFrom? name = some (.bounded depth) := by
  simp only [depthFrom?, present, if_true, found]
  rfl

theorem depthFrom?_of_error {name : String} {cycle : List String}
    (present : graph.nodes.contains (key name) = true)
    (met : graph.adjacency.depthFrom (key name) = .error cycle) :
    graph.depthFrom? name = some (.undefined (cycle.map graph.spelling)) := by
  simp only [depthFrom?, present, if_true, met]
  rfl

/-- The depth of calls from a node is bounded by a number exactly when that is the length of a
longest chain of calls. -/
theorem depthFrom?_bounded_iff (known : graph.Known) {name : String} (depth : Nat)
    (present : graph.nodes.contains (key name) = true) :
    graph.depthFrom? name = some (.bounded depth) ↔ IsLongest graph.Calls (key name) depth := by
  have member : key name ∈ graph.adjacency.keys := (Table.contains_iff_mem_keys ..).mp present
  rw [← edge_adjacency, ← Adjacency.depthFrom_eq_ok_iff known.closed member]
  cases found : graph.adjacency.depthFrom (key name) with
  | ok other => simp [depthFrom?_of_ok present found]
  | error cycle => simp [depthFrom?_of_error present found]

/-- From a node, calls have a longest chain, or a cycle of calls can be reached and is shown. -/
theorem depthFrom?_cases (known : graph.Known) {name : String}
    (present : graph.nodes.contains (key name) = true) :
    (∃ depth, graph.depthFrom? name = some (.bounded depth)) ∨
      ∃ cycle, graph.depthFrom? name = some (.undefined (cycle.map graph.spelling)) ∧
        IsCycle graph.Calls cycle ∧
        ∃ member ∈ cycle, ReflTransGen graph.Calls (key name) member := by
  have member : key name ∈ graph.adjacency.keys := (Table.contains_iff_mem_keys ..).mp present
  have spec := Adjacency.depthFrom_spec known.closed member
  rw [edge_adjacency] at spec
  cases found : graph.adjacency.depthFrom (key name) with
  | ok depth => exact .inl ⟨depth, depthFrom?_of_ok present found⟩
  | error cycle =>
    rw [found] at spec
    exact .inr ⟨cycle, depthFrom?_of_error present found, spec⟩

theorem reachesCycle_of_member {start member : String} {cycle : List String}
    (isCycle : IsCycle graph.Calls cycle) (present : member ∈ cycle)
    (reached : ReflTransGen graph.Calls start member) : ReachesCycle graph.Calls start :=
  ⟨member, reached, isCycle.transGen present⟩

/-- The greatest depth of calls is that of the deepest node, or a cycle of calls is shown. -/
theorem maxDepth_cases (known : graph.Known) :
    (∃ depth, graph.maxDepth = .bounded depth ∧ graph.adjacency.IsDeepest depth) ∨
      ∃ cycle, graph.maxDepth = .undefined (cycle.map graph.spelling) ∧
        IsCycle graph.Calls cycle := by
  have spec := Adjacency.maxDepth_spec known.closed
  rw [edge_adjacency] at spec
  unfold maxDepth
  cases found : graph.adjacency.maxDepth with
  | ok depth =>
    rw [found] at spec
    exact .inl ⟨depth, rfl, spec⟩
  | error cycle =>
    rw [found] at spec
    exact .inr ⟨cycle, rfl, spec⟩

/-- Where a greatest depth exists, no calls go in a cycle. -/
theorem acyclic_of_isDeepest (known : graph.Known) {depth : Nat}
    (deepest : graph.adjacency.IsDeepest depth) (node : String) :
    ¬ TransGen graph.Calls node node := by
  intro around
  rw [← edge_adjacency] at around
  obtain ⟨last, _, step⟩ := TransGen.tail'_iff.mp around
  obtain ⟨_, _, longest⟩ := deepest.bound node (known.closed last node step)
  exact longest.no_cycle ⟨node, .refl, around⟩

/-- The greatest depth in terms of the depths from all nodes. -/
theorem greatest_of_isDeepest (known : graph.Known) {depth : Nat}
    (deepest : graph.adjacency.IsDeepest depth) :
    (∀ name other, graph.depthFrom? name = some (.bounded other) → other ≤ depth) ∧
      (graph.nodes.keys = [] ∧ depth = 0 ∨
        ∃ name, graph.depthFrom? name = some (.bounded depth)) := by
  constructor
  · intro name other found
    have present : graph.nodes.contains (key name) = true := by
      by_contra absent
      have missing := (depthFrom?_eq_none_iff graph name).mpr (by simpa using absent)
      rw [missing] at found
      cases found
    obtain ⟨length, small, longest⟩ :=
      deepest.bound (key name) ((Table.contains_iff_mem_keys ..).mp present)
    rw [edge_adjacency] at longest
    have same := ((depthFrom?_bounded_iff known other present).mp found).unique longest
    omega
  · refine deepest.attained.imp id ?_
    rintro ⟨node, member, longest⟩
    obtain ⟨name, rfl⟩ := known.named node member
    rw [edge_adjacency] at longest
    exact ⟨name, (depthFrom?_bounded_iff known depth
      ((Table.contains_iff_mem_keys ..).mpr member)).mpr longest⟩

/-- The depth of calls from a node with a name: the search for it needs no more than the number of
nodes in depth; it is the length of a longest chain of calls if no cycle can be reached, and shows a
cycle that can be reached otherwise. The greatest depth is the greatest of all nodes, or a cycle. -/
theorem callDepth_exact (built : graph.Built) :
    (∀ name, graph.depthFrom? name = none ↔ graph.nodes.contains (key name) = false) ∧
    (∀ name, graph.nodes.contains (key name) = true →
      (∀ bound, graph.nodes.keys.length ≤ bound →
        addDepths graph.adjacency.next bound [] (key name) .empty =
          addDepths graph.adjacency.next graph.nodes.keys.length [] (key name) .empty) ∧
      (¬ ReachesCycle graph.Calls (key name) → ∃ depth,
        graph.depthFrom? name = some (.bounded depth) ∧
          IsLongest graph.Calls (key name) depth) ∧
      (ReachesCycle graph.Calls (key name) → ∃ cycle,
        graph.depthFrom? name = some (.undefined (cycle.map graph.spelling)) ∧
          IsCycle graph.Calls cycle ∧
          ∃ member ∈ cycle, ReflTransGen graph.Calls (key name) member)) ∧
    ((∃ node, TransGen graph.Calls node node) → ∃ cycle,
      graph.maxDepth = .undefined (cycle.map graph.spelling) ∧ IsCycle graph.Calls cycle) ∧
    ((∀ node, ¬ TransGen graph.Calls node node) → ∃ depth, graph.maxDepth = .bounded depth ∧
      (∀ name other, graph.depthFrom? name = some (.bounded other) → other ≤ depth) ∧
      (graph.nodes.keys = [] ∧ depth = 0 ∨
        ∃ name, graph.depthFrom? name = some (.bounded depth))) := by
  have known := built.known
  refine ⟨graph.depthFrom?_eq_none_iff, fun name present => ⟨fun bound enough => ?_, ?_, ?_⟩,
    ?_, ?_⟩
  · have member := (Table.contains_iff_mem_keys ..).mp present
    exact Adjacency.addDepths_more known.closed (Adjacency.trail_single member) (Nat.le_refl _)
      enough
  · intro acyclic
    rcases depthFrom?_cases known present with
      ⟨depth, found⟩ | ⟨cycle, _, isCycle, member, inside, reached⟩
    · exact ⟨depth, found, (depthFrom?_bounded_iff known depth present).mp found⟩
    · exact absurd (reachesCycle_of_member isCycle inside reached) acyclic
  · intro reaches
    refine (depthFrom?_cases known present).resolve_left ?_
    rintro ⟨depth, found⟩
    exact ((depthFrom?_bounded_iff known depth present).mp found).no_cycle reaches
  · rintro ⟨node, around⟩
    refine (maxDepth_cases known).resolve_left ?_
    rintro ⟨depth, _, deepest⟩
    exact acyclic_of_isDeepest known deepest node around
  · intro acyclic
    rcases maxDepth_cases known with ⟨depth, found, deepest⟩ | ⟨cycle, _, isCycle⟩
    · exact ⟨depth, found, greatest_of_isDeepest known deepest⟩
    · obtain ⟨node, inside⟩ := List.exists_mem_of_ne_nil _ isCycle.nonempty
      exact absurd (isCycle.transGen inside) (acyclic node)

/-- A unit that calls another, which calls a third. -/
def callChain : CallGraph :=
  (CallGraph.addCall {} "main" "step" ⟨"main.st", 3⟩).addCall "step" "log" ⟨"step.st", 7⟩

theorem callDepth_exact_callChain :
    callChain.depthFrom? "Main" = some (.bounded 2) ∧
      IsLongest callChain.Calls (key "Main") 2 := by
  have built : callChain.Built := (Built.empty.addCall ..).addCall ..
  have found : callChain.depthFrom? "Main" = some (.bounded 2) := by decide
  obtain ⟨_, acyclic, cyclic⟩ := (callDepth_exact built).2.1 "Main" (by decide)
  have endless : ¬ ReachesCycle callChain.Calls (key "Main") := by
    intro reaches
    obtain ⟨cycle, other, _⟩ := cyclic reaches
    exact absurd (found.symm.trans other) (by simp)
  obtain ⟨depth, same, longest⟩ := acyclic endless
  obtain rfl : 2 = depth := by simpa using found.symm.trans same
  exact ⟨found, longest⟩

end PlcAudit.Graph.CallGraph
