import PlcAudit.Graph.Dependency
import PlcAudit.Proofs.Data.Table
import PlcAudit.Proofs.Graph.CycleSearch

/-!
Graphs of dependencies as they are built. The ends of every link are nodes, whatever nodes, links
and graphs are added, so that the search for circular references meets every node.
-/

namespace PlcAudit.Graph

open Relation

instance : Std.LawfulEqOrd LinkKind where
  compare_self := by
    intro kind
    cases kind <;> rfl
  eq_of_compare := by
    intro left right same
    have ranks : left.rank = right.rank := Std.LawfulEqOrd.compare_eq_iff_eq.mp same
    cases left <;> cases right <;> first | rfl | cases ranks

namespace DependencyGraph

/-- The graphs that come of adding nodes, links and other such graphs. -/
inductive Built : DependencyGraph → Prop where
  | empty : Built {}
  | addNode (built : Built graph) (node : Entity) : Built (graph.addNode node)
  | addLink (built : Built graph) (link : Link) : Built (graph.addLink link)
  | merge (built : Built graph) (also : Built other) : Built (graph.merge other)

variable {graph : DependencyGraph}

/-- A link of some kind leads from one node to the other. -/
def Linked (graph : DependencyGraph) (source target : String) : Prop :=
  ∃ kind, graph.links.contains ⟨source, target, kind⟩ = true

/-- Both ends of every link are nodes. -/
def EndsKnown (graph : DependencyGraph) : Prop :=
  ∀ link ∈ graph.links.keys, link.source ∈ graph.nodes.keys ∧ link.target ∈ graph.nodes.keys

theorem mem_nodes_addNode (graph : DependencyGraph) (node : Entity) (name : String) :
    name ∈ (graph.addNode node).nodes.keys ↔ name = key node.name ∨ name ∈ graph.nodes.keys :=
  Table.mem_keys_alter ..

theorem EndsKnown.addNode (known : graph.EndsKnown) (node : Entity) :
    (graph.addNode node).EndsKnown := by
  intro link member
  obtain ⟨source, target⟩ := known link member
  exact ⟨(mem_nodes_addNode ..).mpr (.inr source), (mem_nodes_addNode ..).mpr (.inr target)⟩

theorem EndsKnown.addLink (known : graph.EndsKnown) (link : Link) :
    (graph.addLink link).EndsKnown := by
  have required : ((graph.require link.source).require link.target).EndsKnown :=
    (known.addNode _).addNode _
  intro other member
  rcases (Table.mem_keys_alter ..).mp member with same | old
  · subst other
    have target : key link.target ∈
        ((graph.require link.source).require link.target).nodes.keys :=
      (mem_nodes_addNode ..).mpr (.inl rfl)
    have source : key link.source ∈
        ((graph.require link.source).require link.target).nodes.keys :=
      (mem_nodes_addNode ..).mpr (.inr ((mem_nodes_addNode ..).mpr (.inl rfl)))
    exact ⟨source, target⟩
  · exact required other old

theorem EndsKnown.merge (known : graph.EndsKnown) (other : DependencyGraph) :
    (graph.merge other).EndsKnown := by
  apply List.foldlRecOn
  · exact List.foldlRecOn _ _ known fun _ known node _ => known.addNode node
  · exact fun _ known link _ => known.addLink link

theorem Built.endsKnown (built : graph.Built) : graph.EndsKnown := by
  induction built with
  | empty => exact fun _ member => absurd member List.not_mem_nil
  | addNode _ node known => exact known.addNode node
  | addLink _ link known => exact known.addLink link
  | merge _ _ known _ => exact known.merge _

theorem edge_adjacency (graph : DependencyGraph) : graph.adjacency.Edge = graph.Linked := by
  funext source target
  apply propext
  simp only [Adjacency.Edge, adjacency, List.mem_eraseDups, List.mem_map, List.mem_filter, Linked,
    Table.contains_iff_mem_keys]
  constructor
  · rintro ⟨⟨first, second, kind⟩, ⟨member, same⟩, rfl⟩
    obtain rfl : first = source := by simpa [LinkKey.source] using same
    exact ⟨kind, member⟩
  · rintro ⟨kind, member⟩
    exact ⟨_, ⟨member, by simp [LinkKey.source]⟩, rfl⟩

theorem EndsKnown.closed (known : graph.EndsKnown) : graph.adjacency.Closed := by
  intro source target step
  rw [edge_adjacency] at step
  obtain ⟨kind, present⟩ := step
  exact (known _ ((Table.contains_iff_mem_keys ..).mp present)).2

/-- The search for circular references ends, done with every node once, however deep it may go; it
lists simple cycles of links, each once and from its smallest node, and there is a circular
reference exactly when the links have a cycle. -/
theorem circularReferences_exact (built : graph.Built) :
    (∀ bound, graph.nodes.keys.length ≤ bound →
      (graph.adjacency.search bound).done.Perm graph.nodes.keys ∧
        (graph.adjacency.search bound).cycles = graph.adjacency.cycles) ∧
    (∀ cycle ∈ graph.adjacency.cycles, IsCycle graph.Linked cycle ∧ FromSmallest cycle) ∧
    graph.adjacency.cycles.Nodup ∧
    (graph.circularReferences = [] ↔ ∀ node, ¬ TransGen graph.Linked node node) := by
  have closed := built.endsKnown.closed
  rw [← edge_adjacency]
  refine ⟨fun bound enough => ?_, fun cycle => Adjacency.mem_cycles closed,
    Adjacency.cycles_nodup closed, ?_⟩
  · rw [Adjacency.search_more closed enough]
    exact ⟨Adjacency.search_done_perm closed graph.nodes.keys_nodup, rfl⟩
  · rw [circularReferences, List.map_eq_nil_iff]
    exact Adjacency.cycles_eq_nil_iff closed

/-- Two units that use each other. -/
def mutualUse : DependencyGraph :=
  (DependencyGraph.addLink {} ⟨"b", "a", .call, 2⟩).addLink ⟨"a", "b", .typeUse, 5⟩

theorem circularReferences_exact_mutualUse :
    mutualUse.adjacency.cycles = [["A", "B"]] ∧ IsCycle mutualUse.Linked ["A", "B"] ∧
      FromSmallest ["A", "B"] := by
  have built : mutualUse.Built := (Built.empty.addLink _).addLink _
  have found : mutualUse.adjacency.cycles = [["A", "B"]] := by decide
  exact ⟨found, (circularReferences_exact built).2.1 _ (by simp [found])⟩

end DependencyGraph

end PlcAudit.Graph
