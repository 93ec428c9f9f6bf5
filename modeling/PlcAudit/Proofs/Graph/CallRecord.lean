import PlcAudit.Proofs.Graph.Call
import PlcAudit.Proofs.Graph.Merge

/-!
What a call graph records. Edges stand under the keys of their ends and have places, and the number
that is kept with a node is the number of places on the edges that lead to it. Merged graphs have
the places of both; of two nodes of one name, the second only replaces one of unknown kind.
-/

namespace PlcAudit.Graph

namespace CallEdge

variable {first second : CallEdge}

/-- What identifies an edge. -/
def ends (edge : CallEdge) : Pair String String := ⟨key edge.caller, key edge.callee⟩

/-- The edge of calls at some places. -/
def ofSites (caller callee : String) (sites : List Site) : CallEdge :=
  { caller, callee, sites := .ofList (sites.map fun site => (site, ())) }

/-- The places of both edges, with the spelling of the first. -/
def unite (first second : CallEdge) : CallEdge :=
  { first with sites := .ofList (first.sites.entries ++ second.sites.entries) }

theorem mem_sites_ofSites (caller callee : String) (sites : List Site) (site : Site) :
    site ∈ (ofSites caller callee sites).sites.keys ↔ site ∈ sites := by
  rw [ofSites, Table.mem_keys_ofList, List.map_map]
  simp

theorem mem_sites_unite (first second : CallEdge) (site : Site) :
    site ∈ (first.unite second).sites.keys ↔
      site ∈ first.sites.keys ∨ site ∈ second.sites.keys := by
  rw [unite, Table.mem_keys_ofList, List.map_append, List.mem_append]
  rfl

theorem eq_of_sites (caller : first.caller = second.caller) (callee : first.callee = second.callee)
    (sites : ∀ site, site ∈ first.sites.keys ↔ site ∈ second.sites.keys) : first = second := by
  have same := Table.eq_of_mem_keys sites
  cases first
  cases second
  simp_all

instance : Std.Associative unite where
  assoc := by
    intro first second third
    refine eq_of_sites rfl rfl fun site => ?_
    simp only [mem_sites_unite, or_assoc]

instance : Std.IdempotentOp unite where
  idempotent := by
    intro edge
    refine eq_of_sites rfl rfl fun site => ?_
    simp only [mem_sites_unite, or_self]

theorem ofSites_keys (edge : CallEdge) : ofSites edge.caller edge.callee edge.sites.keys = edge :=
  eq_of_sites rfl rfl (mem_sites_ofSites _ _ _)

theorem unite_ofSites (caller callee : String) (sites more : List Site) :
    (ofSites caller callee sites).unite (ofSites caller callee more) =
      ofSites caller callee (sites ++ more) := by
  refine eq_of_sites rfl rfl fun site => ?_
  simp only [mem_sites_unite, mem_sites_ofSites, List.mem_append]

/-- A place that is known adds nothing. -/
theorem unite_known {edge : CallEdge} {site : Site} (known : site ∈ edge.sites.keys)
    (caller callee : String) : edge.unite (ofSites caller callee [site]) = edge := by
  refine eq_of_sites rfl rfl fun other => ?_
  rw [mem_sites_unite, mem_sites_ofSites, List.mem_singleton]
  constructor
  · rintro (old | same)
    · exact old
    · exact same ▸ known
  · exact .inl

theorem unite_new (edge : CallEdge) (caller callee : String) (site : Site) :
    edge.unite (ofSites caller callee [site]) =
      { edge with sites := edge.sites.insert site () } := by
  refine eq_of_sites rfl rfl fun other => ?_
  rw [mem_sites_unite, mem_sites_ofSites, List.mem_singleton, Table.mem_keys_insert, or_comm]

end CallEdge

namespace CallGraph

variable {graph other : CallGraph}

/-- The graph with both ends of a call as nodes. -/
def withEnds (graph : CallGraph) (caller callee : String) : CallGraph :=
  (graph.addNode caller .unknown none).addNode callee .unknown none

/-- The graph with a new place of a call. -/
def noteSite (graph : CallGraph) (caller callee : String) (site : Site) : CallGraph :=
  { nodes := graph.nodes.modify (key callee) fun node =>
      { node with callCount := node.callCount + 1 }
    edges := graph.edges.alter ⟨key caller, key callee⟩ fun present =>
      let edge := present.getD { caller, callee }
      { edge with sites := edge.sites.insert site () } }

theorem addCall_eq (graph : CallGraph) (caller callee : String) (site : Site) :
    graph.addCall caller callee site =
      if (graph.withEnds caller callee).hasSite caller callee site then
        graph.withEnds caller callee
      else (graph.withEnds caller callee).noteSite caller callee site :=
  rfl

theorem mem_sites_of_hasSite {caller callee : String} {site : Site}
    (known : graph.hasSite caller callee site = true) :
    ∃ edge, graph.edges.find? ⟨key caller, key callee⟩ = some edge ∧ site ∈ edge.sites.keys := by
  obtain ⟨edge, found, present⟩ := (Option.any_eq_true ..).mp known
  exact ⟨edge, found, (Table.contains_iff_mem_keys ..).mp present⟩

/-! Edges by their look-ups -/

theorem find?_edges_addCall (graph : CallGraph) (caller callee : String) (site : Site)
    (ends : Pair String String) :
    (graph.addCall caller callee site).edges.find? ends = (graph.edges.find? ends).merge .unite
      (if ends = ⟨key caller, key callee⟩ then some (.ofSites caller callee [site]) else none) := by
  rw [addCall_eq]
  split
  · rename_i known
    obtain ⟨edge, found, present⟩ := mem_sites_of_hasSite known
    change graph.edges.find? ends = _
    split
    · rename_i same
      have stored : graph.edges.find? ends = some edge := same ▸ found
      rw [stored, Option.merge_some_some, CallEdge.unite_known present]
    · rw [Option.merge_none_right]
  · apply Table.find?_alter_merge
    intro present
    cases present with
    | none => rfl
    | some edge => rw [Option.merge_some_some, CallEdge.unite_new]; rfl

theorem find?_edges_addCalls (graph : CallGraph) (caller callee : String) {sites : List Site}
    (nonempty : sites ≠ []) (ends : Pair String String) :
    (sites.foldl (fun graph site => graph.addCall caller callee site) graph).edges.find? ends =
      (graph.edges.find? ends).merge .unite (if ends = ⟨key caller, key callee⟩ then
        some (.ofSites caller callee sites) else none) := by
  induction sites generalizing graph with
  | nil => contradiction
  | cons site rest ih =>
    cases rest with
    | nil => exact find?_edges_addCall ..
    | cons next rest =>
      rw [List.foldl_cons, ih _ (by simp), find?_edges_addCall,
        (Option.associative_merge CallEdge.unite).assoc]
      split
      · rw [Option.merge_some_some, CallEdge.unite_ofSites]
        rfl
      · rfl

theorem find?_edges_mergeEdge (graph : CallGraph) {edge : CallEdge}
    (recorded : edge.sites.keys ≠ []) (ends : Pair String String) :
    (graph.mergeEdge edge).edges.find? ends =
      (graph.edges.find? ends).merge .unite (if ends = edge.ends then some edge else none) := by
  rw [mergeEdge, find?_edges_addCalls graph edge.caller edge.callee recorded, CallEdge.ofSites_keys]
  rfl

/-! Nodes by their look-ups, apart from the number of calls -/

/-- What is known of a node besides its calls. -/
def bare? (graph : CallGraph) (name : String) : Option CallNode :=
  (graph.nodes.find? name).map fun node => { node with callCount := 0 }

theorem mem_nodes_iff_bare? (graph : CallGraph) (name : String) :
    name ∈ graph.nodes.keys ↔ (graph.bare? name).isSome = true := by
  rw [← Table.contains_iff_mem_keys, Table.contains, bare?, Option.isSome_map]

theorem bare?_addNode (graph : CallGraph) (name : String) (kind : EntityKind)
    (file : Option String) (asked : String) :
    (graph.addNode name kind file).bare? asked =
      (graph.bare? asked).or (if asked = key name then some { name, kind, file } else none) := by
  simp only [bare?, addNode, Table.insertNew]
  split
  · rename_i same
    rw [same, Table.find?_alter_self]
    cases graph.nodes.find? (key name) <;> rfl
  · rename_i different
    rw [Table.find?_alter_of_ne _ different, Option.or_none]

theorem bare?_mergeNode (graph : CallGraph) (nodeKey : String) (node : CallNode) (asked : String) :
    (graph.mergeNode nodeKey node).bare? asked =
      (graph.bare? asked).merge (preferKnown CallNode.kind)
        (if asked = nodeKey then some { node with callCount := 0 } else none) := by
  simp only [bare?, mergeNode]
  split
  · rename_i same
    rw [same, Table.find?_alter_self]
    cases graph.nodes.find? nodeKey with
    | none => rfl
    | some existing =>
      simp only [Option.map_some, Option.merge_some_some, preferKnown]
      split <;> rfl
  · rename_i different
    rw [Table.find?_alter_of_ne _ different, Option.merge_none_right]

/-- A place of a call changes no more than the number of calls. -/
theorem bare?_noteSite (graph : CallGraph) (caller callee : String) (site : Site) :
    (graph.noteSite caller callee site).bare? = graph.bare? := by
  funext asked
  simp only [bare?, noteSite]
  by_cases same : asked = key callee
  · rw [same, Table.find?_modify_self, Option.map_map]
    rfl
  · rw [Table.find?_modify_of_ne _ same]

theorem bare?_addCall (graph : CallGraph) (caller callee : String) (site : Site) :
    (graph.addCall caller callee site).bare? = (graph.withEnds caller callee).bare? := by
  rw [addCall_eq]
  split
  · rfl
  · exact bare?_noteSite ..

/-- Nodes that are there stay as they are. -/
theorem bare?_addNode_of_mem {name : String} (present : key name ∈ graph.nodes.keys)
    (kind : EntityKind) (file : Option String) :
    (graph.addNode name kind file).bare? = graph.bare? := by
  funext asked
  rw [bare?_addNode]
  split
  · rename_i same
    obtain ⟨node, found⟩ := Option.isSome_iff_exists.mp ((mem_nodes_iff_bare? ..).mp present)
    rw [same, found, Option.some_or]
  · rw [Option.or_none]

theorem bare?_mergeEdge_of_mem {edge : CallEdge} (caller : edge.ends.first ∈ graph.nodes.keys)
    (callee : edge.ends.second ∈ graph.nodes.keys) :
    (graph.mergeEdge edge).bare? = graph.bare? := by
  refine List.foldlRecOn (motive := fun grown : CallGraph => grown.bare? = graph.bare?) _ _ rfl ?_
  intro grown same site _
  have kept {name : String} (member : name ∈ graph.nodes.keys) : name ∈ grown.nodes.keys := by
    rw [mem_nodes_iff_bare?, same]
    exact (mem_nodes_iff_bare? ..).mp member
  rw [bare?_addCall, withEnds, bare?_addNode_of_mem, bare?_addNode_of_mem, same]
  · exact kept caller
  · exact (mem_nodes_addNode ..).mpr (.inr (kept callee))

/-! Books that add up -/

/-- The number of places on the edges that lead to a node. -/
def incoming (graph : CallGraph) (callee : String) : Nat :=
  graph.edges.total fun ends edge => if ends.second = callee then edge.sites.size else 0

/-- Nodes and edges stand under the keys of their names, every edge has a place, and every node
knows how many places call it. -/
structure Consistent (graph : CallGraph) : Prop extends graph.Known where
  nodes : graph.nodes.All fun name node => key node.name = name
  edges : graph.edges.All fun ends edge => edge.ends = ends
  recorded : graph.edges.All fun _ edge => edge.sites.keys ≠ []
  counts : graph.nodes.All fun name node => node.callCount = graph.incoming name

/-- No edge leads to a name without a node. -/
theorem Known.incoming_eq_zero (known : graph.Known) {name : String}
    (absent : graph.nodes.find? name = none) : graph.incoming name = 0 := by
  apply Table.total_eq_zero
  intro ends edge found
  apply if_neg
  rintro rfl
  obtain ⟨node, present⟩ :=
    Table.find?_of_mem_keys (known.ends ends (Table.mem_keys_of_find? found)).2
  rw [absent] at present
  cases present

/-- A node may be stored under the key of its name with the number of places that call it. -/
theorem Consistent.alter (consistent : graph.Consistent) {name : String}
    {value : Option CallNode → CallNode} (named : key (value (graph.nodes.find? name)).name = name)
    (counted : (value (graph.nodes.find? name)).callCount = graph.incoming name) :
    Consistent { graph with nodes := graph.nodes.alter name value } where
  toKnown := consistent.toKnown.alter ⟨_, named.symm⟩ value
  nodes := consistent.nodes.alter named
  edges := consistent.edges
  recorded := consistent.recorded
  counts := consistent.counts.alter counted

theorem Consistent.addNode (consistent : graph.Consistent) (name : String) (kind : EntityKind)
    (file : Option String) : (graph.addNode name kind file).Consistent := by
  cases found : graph.nodes.find? (key name) with
  | none =>
    apply consistent.alter
    · rw [found]
      rfl
    · rw [found]
      exact (consistent.incoming_eq_zero found).symm
  | some existing =>
    apply consistent.alter
    · rw [found]
      exact consistent.nodes _ _ found
    · rw [found]
      exact consistent.counts _ _ found

theorem Consistent.mergeNode (consistent : graph.Consistent) {nodeKey : String} {node : CallNode}
    (named : key node.name = nodeKey) : (graph.mergeNode nodeKey node).Consistent := by
  cases found : graph.nodes.find? nodeKey with
  | none =>
    apply consistent.alter
    · rw [found]
      exact named
    · rw [found]
      exact (consistent.incoming_eq_zero found).symm
  | some existing =>
    apply consistent.alter
    · rw [found]
      dsimp only
      split
      · exact named
      · exact consistent.nodes _ _ found
    · rw [found]
      dsimp only
      split <;> exact consistent.counts _ existing found

/-- A new place counts for its callee and for no other node. -/
theorem incoming_noteSite {caller callee : String} {site : Site}
    (new : ¬ graph.hasSite caller callee site = true) (asked : String) :
    (graph.noteSite caller callee site).incoming asked =
      graph.incoming asked + if asked = key callee then 1 else 0 := by
  have moved := graph.edges.total_alter ⟨key caller, key callee⟩
    (fun present =>
      let edge := present.getD { caller, callee }
      { edge with sites := edge.sites.insert site () })
    fun ends edge => if ends.second = asked then edge.sites.size else 0
  change (graph.noteSite caller callee site).incoming asked + _ = graph.incoming asked + _ at moved
  cases found : graph.edges.find? ⟨key caller, key callee⟩ with
  | none =>
    have one : (Table.insert .empty site () : Table Site Unit).size = 1 := rfl
    simp only [found, Option.elim_none, Option.getD_none, one, eq_comm] at moved ⊢
    omega
  | some edge =>
    have fresh : site ∉ edge.sites.keys := by
      intro known
      apply new
      rw [hasSite, edge?, found]
      exact (Table.contains_iff_mem_keys ..).mpr known
    simp only [found, Option.elim_some, Option.getD_some, Table.size_insert_new fresh] at moved
    by_cases same : asked = key callee
    · simp only [same, if_true] at moved ⊢
      omega
    · simp only [same, Ne.symm same, if_false] at moved ⊢
      omega

theorem Consistent.noteSite (consistent : graph.Consistent) {caller callee : String} {site : Site}
    (known : (graph.noteSite caller callee site).Known)
    (new : ¬ graph.hasSite caller callee site = true) :
    (graph.noteSite caller callee site).Consistent where
  toKnown := known
  nodes := consistent.nodes.modify fun node found => consistent.nodes _ node found
  edges := by
    apply consistent.edges.alter
    cases found : graph.edges.find? ⟨key caller, key callee⟩ with
    | none => rfl
    | some edge => exact consistent.edges _ edge found
  recorded := by
    apply consistent.recorded.alter
    exact List.ne_nil_of_mem ((Table.mem_keys_insert ..).mpr (.inl rfl))
  counts := by
    intro name node found
    rw [incoming_noteSite new]
    by_cases same : name = key callee
    · subst name
      rw [CallGraph.noteSite, Table.find?_modify_self] at found
      obtain ⟨old, present, rfl⟩ := Option.map_eq_some_iff.mp found
      rw [if_pos rfl, ← consistent.counts _ old present]
    · rw [CallGraph.noteSite, Table.find?_modify_of_ne _ same] at found
      rw [if_neg same, Nat.add_zero]
      exact consistent.counts name node found

theorem Consistent.addCall (consistent : graph.Consistent) (caller callee : String) (site : Site) :
    (graph.addCall caller callee site).Consistent := by
  have grown : (graph.withEnds caller callee).Consistent :=
    (consistent.addNode _ _ _).addNode _ _ _
  have known := consistent.toKnown.addCall caller callee site
  rw [addCall_eq] at known ⊢
  split
  · exact grown
  · rename_i new
    rw [if_neg new] at known
    exact grown.noteSite known new

theorem Consistent.mergeEdge (consistent : graph.Consistent) (edge : CallEdge) :
    (graph.mergeEdge edge).Consistent :=
  List.foldlRecOn _ _ consistent fun _ consistent site _ =>
    consistent.addCall edge.caller edge.callee site

theorem Consistent.merge (consistent : graph.Consistent) (also : other.Consistent) :
    (graph.merge other).Consistent := by
  apply List.foldlRecOn
  · apply List.foldlRecOn _ _ consistent
    intro graph consistent entry member
    exact consistent.mergeNode (also.nodes _ _ (Table.find?_of_mem_entries member))
  · exact fun graph consistent edge _ => consistent.mergeEdge edge

theorem Built.consistent (built : graph.Built) : graph.Consistent := by
  induction built with
  | empty =>
    exact ⟨Built.empty.known, Table.all_empty, Table.all_empty, Table.all_empty, Table.all_empty⟩
  | addNode _ name kind file consistent => exact consistent.addNode name kind file
  | addCall _ caller callee site consistent => exact consistent.addCall caller callee site
  | merge _ _ consistent also => exact consistent.merge also

/-- The number of calls is no more than what the edges say. -/
theorem Consistent.find?_nodes (consistent : graph.Consistent) (name : String) :
    graph.nodes.find? name =
      (graph.bare? name).map fun node => { node with callCount := graph.incoming name } := by
  cases found : graph.nodes.find? name with
  | none =>
    rw [bare?, found]
    rfl
  | some node =>
    rw [bare?, found, ← consistent.counts name node found]
    rfl

/-- Graphs whose books add up are given by their edges and by their nodes without calls. -/
theorem Consistent.eq_of_bare? (consistent : graph.Consistent) (also : other.Consistent)
    (nodes : ∀ name, graph.bare? name = other.bare? name)
    (edges : ∀ ends, graph.edges.find? ends = other.edges.find? ends) : graph = other := by
  have sameEdges : graph.edges = other.edges := Table.eq_of_find? edges
  have sameNodes : graph.nodes = other.nodes := by
    apply Table.eq_of_find?
    intro name
    rw [consistent.find?_nodes, also.find?_nodes, nodes, incoming, incoming, sameEdges]
  cases graph
  cases other
  simp_all

/-! Merged graphs by their look-ups -/

theorem edges_foldl_mergeNode (entries : List (String × CallNode)) (graph : CallGraph) :
    (entries.foldl (fun graph (nodeKey, node) => graph.mergeNode nodeKey node) graph).edges =
      graph.edges := by
  induction entries generalizing graph with
  | nil => rfl
  | cons entry rest ih => exact ih (graph.mergeNode entry.1 entry.2)

theorem find?_edges_merge (consistent : other.Consistent) (graph : CallGraph)
    (ends : Pair String String) :
    (graph.merge other).edges.find? ends =
      (graph.edges.find? ends).merge .unite (other.edges.find? ends) := by
  rw [merge, ← edges_foldl_mergeNode other.nodes.entries graph]
  apply other.edges.look_foldl_values fun (graph : CallGraph) ends => graph.edges.find? ends
  intro graph stored edge found ends
  obtain rfl := consistent.edges stored edge found
  exact find?_edges_mergeEdge graph (consistent.recorded _ edge found) ends

theorem bare?_foldl_mergeNode (graph other : CallGraph) (name : String) :
    (other.nodes.entries.foldl (fun graph (nodeKey, node) => graph.mergeNode nodeKey node)
        graph).bare? name =
      (graph.bare? name).merge (preferKnown CallNode.kind) (other.bare? name) := by
  apply other.nodes.look_foldl_entries bare?
  intro graph entry _ name
  exact bare?_mergeNode ..

theorem bare?_merge (known : other.Consistent) (graph : CallGraph) (name : String) :
    (graph.merge other).bare? name =
      (graph.bare? name).merge (preferKnown CallNode.kind) (other.bare? name) := by
  have joined := bare?_foldl_mergeNode graph other
  rw [← joined, merge]
  generalize other.nodes.entries.foldl (fun graph (nodeKey, node) => graph.mergeNode nodeKey node)
    graph = base at joined
  -- the ends of all calls that follow are nodes already
  suffices same : (other.edges.values.foldl CallGraph.mergeEdge base).bare? = base.bare? by
    rw [same]
  refine List.foldlRecOn (motive := fun grown : CallGraph => grown.bare? = base.bare?) _ _ rfl ?_
  intro grown same edge member
  have present {node : String} (listed : node ∈ other.nodes.keys) : node ∈ grown.nodes.keys := by
    rw [mem_nodes_iff_bare?] at listed ⊢
    rw [same, joined, Option.isSome_merge, listed, Bool.or_true]
  obtain ⟨ends, found⟩ := (Table.mem_values_iff ..).mp member
  have listed := known.ends ends (Table.mem_keys_of_find? found)
  obtain rfl := known.edges ends edge found
  rw [bare?_mergeEdge_of_mem (present listed.1) (present listed.2), same]

end CallGraph

end PlcAudit.Graph
