import Mathlib.Data.List.Perm.Basic
import PlcAudit.Proofs.Graph.Agreement

/-!
Files in another order. Names are looked up among the declarations of all files, so a file gives the
same fragment wherever it stands. Where no two declarations share a name, no two files know the same
link or call, and all they say of other nodes is that there is such a name. So fragments add up to
the same graphs in every order, and only the spelling of a name without a declaration is that of the
file which comes first.
-/

namespace PlcAudit.Graph

open Code

/-! Work on items in another order -/

theorem mapM_eq_ok_iff {ε α β : Type} {work : α → Except ε β} {items : List α}
    {results : List β} : items.mapM work = .ok results ↔
      List.Forall₂ (fun item result => work item = .ok result) items results := by
  induction items generalizing results with
  | nil =>
    rw [List.forall₂_nil_left_iff, List.mapM_nil]
    exact ⟨fun done => (Except.ok.inj done).symm, congrArg _ ∘ Eq.symm⟩
  | cons item rest ih =>
    rw [List.forall₂_cons_left_iff, List.mapM_cons]
    constructor
    · intro done
      obtain ⟨result, made, done⟩ := exists_ok_of_bind done
      obtain ⟨more, also, done⟩ := exists_ok_of_bind done
      exact ⟨result, more, made, ih.mp also, (Except.ok.inj done).symm⟩
    · rintro ⟨result, more, made, also, rfl⟩
      rw [made, ih.mpr also]
      rfl

/-- Work that is done on all items is done on them in any order. -/
theorem exists_perm_of_mapM {ε α β : Type} {work : α → Except ε β} {items others : List α}
    {results : List β} (reorder : items.Perm others) (done : items.mapM work = .ok results) :
    ∃ more, others.mapM work = .ok more ∧ results.Perm more := by
  obtain ⟨more, made, same⟩ := List.perm_comp_forall₂ reorder.symm (mapM_eq_ok_iff.mp done)
  exact ⟨more, mapM_eq_ok_iff.mpr made, same.symm⟩

/-- Where every step joins the share of an item to the view of a state, and no two items have
different shares, the order of the items does not matter to the view. -/
theorem view_foldl_perm {σ α β : Type} (view : σ → Option β) (share : α → Option β)
    (join : β → β → β) {step : σ → α → σ} {items others : List α} (reorder : items.Perm others)
    (one : ∀ state, ∀ item ∈ items, view (step state item) = (view state).merge join (share item))
    (apart : ∀ first ∈ items, ∀ second ∈ items,
      share first = share second ∨ share first = none ∨ share second = none) (state : σ) :
    view (items.foldl step state) = view (others.foldl step state) := by
  have viewed (order : List α) (inside : order ⊆ items) : view (order.foldl step state) =
      order.foldl (fun found item => found.merge join (share item)) (view state) := by
    apply List.foldl_rel (r := fun state found => view state = found) rfl
    intro item member state found same
    rw [one state item (inside member), same]
  rw [viewed items (List.Subset.refl items), viewed others reorder.symm.subset]
  apply reorder.foldl_eq'
  intro first here second there found
  rcases apart first here second there with same | absent | absent
  · rw [same]
  · rw [absent, Option.merge_none_right, Option.merge_none_right]
  · rw [absent, Option.merge_none_right, Option.merge_none_right]

/-! Declarations -/

/-- No two declarations of the files share a name. -/
def DistinctNames (trees : List Tree) : Prop :=
  ((trees.flatMap declaredEntities).map fun node => key node.name).Nodup

instance (trees : List Tree) : Decidable (DistinctNames trees) :=
  inferInstanceAs (Decidable (List.Nodup _))

theorem foldl_addNode_perm {nodes others : List Entity}
    (distinct : (nodes.map fun node => key node.name).Nodup) (reorder : nodes.Perm others)
    (graph : DependencyGraph) :
    nodes.foldl DependencyGraph.addNode graph = others.foldl DependencyGraph.addNode graph := by
  apply DependencyGraph.eq_of_find?
  · intro name
    apply view_foldl_perm (fun graph : DependencyGraph => graph.nodes.find? name)
      (fun node => if name = key node.name then some node else none) (preferKnown Entity.kind)
      reorder
    · exact fun graph node _ => DependencyGraph.find?_addNode graph node name
    · intro first here second there
      by_cases one : name = key first.name
      · by_cases two : name = key second.name
        · have same := List.inj_on_of_nodup_map distinct here there (one.symm.trans two)
          exact .inl (by rw [same])
        · exact .inr (.inr (if_neg two))
      · exact .inr (.inl (if_neg one))
  · intro place
    rw [DependencyGraph.links_foldl_addNode, DependencyGraph.links_foldl_addNode]

theorem DistinctNames.declaredGraph_perm {trees reordered : List Tree}
    (distinct : DistinctNames trees) (reorder : trees.Perm reordered) :
    declaredGraph trees = declaredGraph reordered :=
  foldl_addNode_perm distinct (reorder.flatMap_right declaredEntities) {}

/-- Every declaration is the node of its name. -/
theorem DistinctNames.find?_declaredGraph {trees : List Tree} (distinct : DistinctNames trees)
    {tree : Tree} (listed : tree ∈ trees) {node : Entity}
    (declared : node ∈ declaredEntities tree) :
    (declaredGraph trees).nodes.find? (key node.name) = some node := by
  obtain ⟨front, back, split⟩ := List.append_of_mem (List.mem_flatMap.mpr ⟨tree, listed, declared⟩)
  have first : (trees.flatMap declaredEntities).Perm (node :: (front ++ back)) := by
    rw [split]
    exact List.perm_middle
  have apart : ((node :: (front ++ back)).map fun node => key node.name).Nodup :=
    (first.map _).nodup distinct
  rw [List.map_cons, List.nodup_cons] at apart
  rw [declaredGraph, foldl_addNode_perm distinct first, List.foldl_cons]
  refine List.foldlRecOn
    (motive := fun graph : DependencyGraph => graph.nodes.find? (key node.name) = some node)
    _ _ ?_ ?_
  · exact Table.find?_alter_self ..
  · intro graph found other member
    have different : key node.name ≠ key other.name := by
      intro same
      exact apart.1 (List.mem_map.mpr ⟨other, member, same.symm⟩)
    rw [DependencyGraph.find?_addNode, if_neg different, Option.merge_none_right, found]

/-- The node that a unit of a file declares. -/
def entityOf (tree : Tree) (pou : Pou Mark) : Entity :=
  { name := pou.name, kind := .ofPou pou.kind, file := some tree.file, description := pou.label }

theorem entityOf_name (tree : Tree) (pou : Pou Mark) : (entityOf tree pou).name = pou.name := rfl

theorem entityOf_mem {tree : Tree} {pou : Pou Mark} (member : pou ∈ tree.pous) :
    entityOf tree pou ∈ declaredEntities tree :=
  List.mem_append_left _ (List.mem_append_left _ (List.mem_map_of_mem member))

/-- A unit of the file has the key. -/
def Owns (tree : Tree) (name : String) : Prop := ∃ pou ∈ tree.pous, key pou.name = name

/-- A name that a file owns is declared by one of its units. -/
theorem DistinctNames.find?_of_owns {trees : List Tree} (distinct : DistinctNames trees)
    {tree : Tree} (listed : tree ∈ trees) {name : String} (owns : Owns tree name) :
    ∃ pou, (declaredGraph trees).nodes.find? name = some (entityOf tree pou) := by
  obtain ⟨pou, member, rfl⟩ := owns
  have found := distinct.find?_declaredGraph listed (entityOf_mem member)
  rw [entityOf_name] at found
  exact ⟨pou, found⟩

/-- No two files own the same name. -/
theorem DistinctNames.eq_of_owns {trees : List Tree} (distinct : DistinctNames trees)
    {tree other : Tree} (listed : tree ∈ trees) (also : other ∈ trees) {name : String}
    (owns : Owns tree name) (owned : Owns other name) : tree = other := by
  have symmetric : Std.Symm (Function.onFun List.Disjoint fun tree =>
      (declaredEntities tree).map fun node => key node.name) := ⟨fun _ _ => List.disjoint_symm⟩
  have split := distinct
  rw [DistinctNames, List.map_flatMap, List.nodup_flatMap] at split
  by_contra different
  have apart := split.2.forall listed also different
  obtain ⟨pou, here, rfl⟩ := owns
  obtain ⟨twin, there, same⟩ := owned
  exact apart (List.mem_map.mpr ⟨entityOf tree pou, entityOf_mem here, rfl⟩)
    (List.mem_map.mpr ⟨entityOf other twin, entityOf_mem there, same⟩)

/-! What a file adds to the graphs -/

/-- The node without the spelling of a name that nothing declares. -/
def Entity.unspelled (node : Entity) : Entity :=
  if node.kind = .unknown then { node with name := key node.name } else node

theorem Entity.kind_unspelled (node : Entity) : node.unspelled.kind = node.kind := by
  unfold unspelled
  split <;> rfl

theorem keys_of_unspelled {first second : Table String Entity}
    (same : first.mapValues Entity.unspelled = second.mapValues Entity.unspelled) :
    first.keys = second.keys := by
  apply Table.keys_eq_of_isSome
  intro name
  have found := congrArg (fun table : Table String Entity => (table.find? name).isSome) same
  simpa [Table.find?_mapValues] using found

/-- The node of a name that nothing declares. -/
def undeclared (name : String) : Entity := { name, kind := .unknown }

/-- All that a graph says of its nodes is that there are such names. -/
def DependencyGraph.NamesOnly (graph : DependencyGraph) : Prop :=
  graph.nodes.All fun name node => node.unspelled = undeclared name

namespace DependencyGraph.NamesOnly

variable {graph : DependencyGraph}

theorem require (namesOnly : graph.NamesOnly) (name : String) :
    (graph.require name).NamesOnly := by
  apply Table.All.alter namesOnly
  split
  · rfl
  · rename_i existing found
    have known := namesOnly _ existing found
    simpa using known

theorem addLink (namesOnly : graph.NamesOnly) (link : Link) : (graph.addLink link).NamesOnly :=
  (namesOnly.require link.source).require link.target

theorem kind_eq (namesOnly : graph.NamesOnly) {name : String} {node : Entity}
    (found : graph.nodes.find? name = some node) : node.kind = .unknown := by
  rw [← node.kind_unspelled, namesOnly name node found]
  rfl

/-- Merging adds names that were missing, and no more. -/
theorem find?_merge (namesOnly : graph.NamesOnly) (built : graph.Built) (base : DependencyGraph)
    (name : String) : (base.merge graph).nodes.find? name =
      (base.nodes.find? name).or (graph.nodes.find? name) := by
  rw [find?_nodes_merge built.placed built.endsKnown]
  cases found : graph.nodes.find? name with
  | none => cases base.nodes.find? name <;> rfl
  | some node =>
    cases base.nodes.find? name with
    | none => rfl
    | some existing =>
      rw [Option.merge_some_some, preferKnown_unknown _ (namesOnly.kind_eq found)]
      rfl

end DependencyGraph.NamesOnly

/-- The kind under which a graph knows a name. -/
def kindIn (graph : DependencyGraph) (name : String) : Option EntityKind :=
  (graph.node? name).map Entity.kind

variable {declared graph : DependencyGraph} {calls : CallGraph} {tree : Tree}

theorem mem_callableGraph {node : Entity} (found : node ∈ declared.nodes.values)
    (callable : node.kind.isCallable = true) :
    key node.name ∈ (callableGraph declared).nodes.keys := by
  have listed : node ∈ declared.nodes.values.filter fun node => node.kind.isCallable :=
    List.mem_filter.mpr ⟨found, callable⟩
  obtain ⟨front, back, split⟩ := List.append_of_mem listed
  rw [callableGraph, split, List.foldl_append, List.foldl_cons]
  refine List.foldlRecOn
    (motive := fun calls : CallGraph => key node.name ∈ calls.nodes.keys) _ _ ?_ ?_
  · exact (Table.mem_keys_alter ..).mpr (.inl rfl)
  · exact fun calls present other _ => (Table.mem_keys_alter ..).mpr (.inr present)

theorem mem_callableGraph_of_kindIn (placed : declared.Placed) {name : String}
    (callable : (kindIn declared name).any EntityKind.isCallable = true) :
    key name ∈ (callableGraph declared).nodes.keys := by
  rw [kindIn, Option.any_map] at callable
  obtain ⟨node, found, callable⟩ := (Option.any_eq_true ..).mp callable
  rw [← placed.nodes _ node found]
  exact mem_callableGraph ((Table.mem_values_iff ..).mpr ⟨_, found⟩) callable

/-- Units can be called. -/
theorem DistinctNames.mem_callableGraph {trees : List Tree} (distinct : DistinctNames trees)
    (listed : tree ∈ trees) {name : String} (owns : Owns tree name) :
    name ∈ (callableGraph (declaredGraph trees)).nodes.keys := by
  obtain ⟨pou, found⟩ := distinct.find?_of_owns listed owns
  have callable : (entityOf tree pou).kind.isCallable = true := by
    show (EntityKind.ofPou pou.kind).isCallable = true
    cases pou.kind <;> rfl
  rw [← (declaredGraph_agree trees).graphBuilt.placed.nodes name _ found]
  exact Graph.mem_callableGraph ((Table.mem_values_iff ..).mpr ⟨name, found⟩) callable

/-- The graphs of a file know only names; their links and calls start at units of the file, and
calls are between things that the project can call. -/
structure IsFragment (declared : DependencyGraph) (tree : Tree) (graph : DependencyGraph)
    (calls : CallGraph) : Prop where
  namesOnly : graph.NamesOnly
  sources : graph.links.All fun place _ => Owns tree place.source
  callers : calls.edges.All fun ends _ => Owns tree ends.first
  callNodes : ∀ name node, calls.bare? name = some node →
    node.kind = .unknown ∧ name ∈ (callableGraph declared).nodes.keys

namespace IsFragment

theorem empty : IsFragment declared tree {} {} where
  namesOnly := Table.all_empty
  sources := Table.all_empty
  callers := Table.all_empty
  callNodes := fun _ _ found => by cases found

theorem addLink (fragment : IsFragment declared tree graph calls) {link : Link}
    (owns : Owns tree (key link.source)) : IsFragment declared tree (graph.addLink link) calls where
  namesOnly := fragment.namesOnly.addLink link
  sources := Table.All.alter fragment.sources owns
  callers := fragment.callers
  callNodes := fragment.callNodes

theorem addCall (fragment : IsFragment declared tree graph calls) {caller callee : String}
    (owns : Owns tree (key caller)) (here : key caller ∈ (callableGraph declared).nodes.keys)
    (there : key callee ∈ (callableGraph declared).nodes.keys) (site : Site) :
    IsFragment declared tree graph (calls.addCall caller callee site) where
  namesOnly := fragment.namesOnly
  sources := fragment.sources
  callers := by
    rw [CallGraph.addCall_eq]
    split
    · exact fragment.callers
    · exact Table.All.alter fragment.callers owns
  callNodes := by
    intro name node found
    rw [CallGraph.bare?_addCall, CallGraph.withEnds, CallGraph.bare?_addNode,
      CallGraph.bare?_addNode, Option.or_eq_some_iff, Option.or_eq_some_iff] at found
    rcases found with (known | ⟨_, calling⟩) | ⟨_, called⟩
    · exact fragment.callNodes name node known
    · obtain ⟨rfl, same⟩ := Option.ite_none_right_eq_some.mp calling
      cases same
      exact ⟨rfl, here⟩
    · obtain ⟨rfl, same⟩ := Option.ite_none_right_eq_some.mp called
      cases same
      exact ⟨rfl, there⟩

end IsFragment

theorem heritage_source {pou : Pou Mark} {link : Link} (member : link ∈ heritage pou) :
    link.source = pou.name := by
  unfold heritage at member
  split at member
  · rcases List.mem_append.mp member with based | implemented
    · obtain ⟨base, _, rfl⟩ := List.mem_map.mp based
      rfl
    · obtain ⟨interface, _, rfl⟩ := List.mem_map.mp implemented
      rfl
  · cases member

/-- The links of a unit start at the unit, and its calls are of things that can be called. -/
theorem contribution_own {kindOf : String → Option EntityKind} {pou : Pou Mark}
    {part : Contribution} (done : contribution kindOf pou = .ok part) :
    (∀ link ∈ part.links, link.source = pou.name) ∧
    ∀ call ∈ part.calls, (kindOf call.1).any EntityKind.isCallable = true := by
  obtain ⟨types, _, done⟩ := exists_ok_of_bind done
  obtain ⟨called, _, done⟩ := exists_ok_of_bind done
  cases done
  refine ⟨fun link member => ?_, fun call member => (List.mem_filter.mp member).2⟩
  simp only [List.mem_append, or_assoc] at member
  rcases member with inherited | used | calling | referenced
  · exact heritage_source inherited
  · obtain ⟨use, _, rfl⟩ := List.mem_map.mp used
    rfl
  · obtain ⟨call, _, rfl⟩ := List.mem_map.mp calling
    rfl
  · obtain ⟨reference, _, rfl⟩ := List.mem_map.mp referenced
    rfl

theorem fragment_isFragment {trees : List Tree} (distinct : DistinctNames trees)
    (listed : tree ∈ trees) {part : DependencyGraph × CallGraph}
    (done : fragment (kindIn (declaredGraph trees)) tree = .ok part) :
    IsFragment (declaredGraph trees) tree part.1 part.2 := by
  obtain ⟨parts, made, done⟩ := exists_ok_of_bind done
  cases done
  have own : ∀ entry ∈ parts, Owns tree (key entry.1.name) ∧
      contribution (kindIn (declaredGraph trees)) entry.1 = .ok entry.2 := by
    intro entry member
    obtain ⟨pou, inside, reached⟩ := exists_item_of_mapM made member
    obtain ⟨part, known, rfl⟩ := exists_ok_of_map reached
    exact ⟨⟨pou, inside, rfl⟩, known⟩
  have placed := (declaredGraph_agree trees).graphBuilt.placed
  refine List.foldlRecOn (motive := IsFragment (declaredGraph trees) tree _) _ _ ?_ ?_
  · refine List.foldlRecOn (motive := (IsFragment (declaredGraph trees) tree · {})) _ _ .empty ?_
    intro graph fragment link member
    obtain ⟨entry, present, inside⟩ := List.mem_flatMap.mp member
    obtain ⟨owns, known⟩ := own entry present
    apply fragment.addLink
    rw [(contribution_own known).1 link inside]
    exact owns
  · intro calls fragment call member
    obtain ⟨entry, present, inside⟩ := List.mem_flatMap.mp member
    obtain ⟨place, also, rfl⟩ := List.mem_map.mp inside
    obtain ⟨owns, known⟩ := own entry present
    exact fragment.addCall owns (distinct.mem_callableGraph listed owns)
      (mem_callableGraph_of_kindIn placed ((contribution_own known).2 place also)) _

/-- Circular references are a matter of nodes, links and the spelling of nodes with links. -/
theorem circularReferences_congr {graph other : DependencyGraph} (known : graph.EndsKnown)
    (keys : graph.nodes.keys = other.nodes.keys) (links : graph.links = other.links)
    (spelled : ∀ place ∈ graph.links.keys,
      graph.nodes.find? place.source = other.nodes.find? place.source) :
    graph.circularReferences = other.circularReferences := by
  have adjacent : graph.adjacency = other.adjacency := by
    rw [DependencyGraph.adjacency, DependencyGraph.adjacency, keys, links]
  rw [DependencyGraph.circularReferences, DependencyGraph.circularReferences, ← adjacent]
  apply List.map_congr_left
  intro cycle member
  have isCycle := (Adjacency.mem_cycles known.closed member).1
  rw [DependencyGraph.edge_adjacency] at isCycle
  have spelling : cycle.map graph.spelling = cycle.map other.spelling := by
    apply List.map_congr_left
    intro node present
    obtain ⟨next, ⟨kind, linked⟩, _⟩ := Relation.TransGen.head'_iff.mp (isCycle.transGen present)
    have same := spelled _ ((Table.contains_iff_mem_keys ..).mp linked)
    rw [DependencyGraph.spelling, DependencyGraph.spelling]
    exact congrArg (fun found => (Option.map Entity.name found).getD node) same
  rw [DependencyGraph.circularReference, DependencyGraph.circularReference, spelling, links]

/-! Fragments in another order -/

/-- The dependencies of all fragments, added to a graph. -/
def mergedGraph (graph : DependencyGraph) (fragments : List (DependencyGraph × CallGraph)) :
    DependencyGraph :=
  fragments.foldl (fun graph part => graph.merge part.1) graph

/-- The calls of all fragments, added to a graph. -/
def mergedCalls (calls : CallGraph) (fragments : List (DependencyGraph × CallGraph)) : CallGraph :=
  fragments.foldl (fun calls part => calls.merge part.2) calls

/-- Each is the fragment of a file of the project. -/
def AreFragments (trees : List Tree) (fragments : List (DependencyGraph × CallGraph)) : Prop :=
  ∀ part ∈ fragments, ∃ tree ∈ trees, fragment (kindIn (declaredGraph trees)) tree = .ok part

namespace AreFragments

variable {trees : List Tree} {fragments others : List (DependencyGraph × CallGraph)}

/-- What fragments hold only if their file owns a name, no two of them hold. -/
theorem apart (areFragments : AreFragments trees fragments) (distinct : DistinctNames trees)
    {β : Type} {share : DependencyGraph × CallGraph → Option β} {name : String}
    (owned : ∀ tree part value, IsFragment (declaredGraph trees) tree part.1 part.2 →
      share part = some value → Owns tree name) :
    ∀ first ∈ fragments, ∀ second ∈ fragments,
      share first = share second ∨ share first = none ∨ share second = none := by
  intro first here second there
  cases one : share first with
  | none => exact .inr (.inl rfl)
  | some left =>
    cases two : share second with
    | none => exact .inr (.inr rfl)
    | some right =>
      obtain ⟨tree, listed, made⟩ := areFragments first here
      obtain ⟨twin, also, done⟩ := areFragments second there
      have owns := owned tree first left (fragment_isFragment distinct listed made) one
      have again := owned twin second right (fragment_isFragment distinct also done) two
      obtain rfl := distinct.eq_of_owns listed also owns again
      obtain rfl := Except.ok.inj (made.symm.trans done)
      exact .inl (one.symm.trans two)

theorem links_perm (areFragments : AreFragments trees fragments) (distinct : DistinctNames trees)
    (reorder : fragments.Perm others) (graph : DependencyGraph) :
    (mergedGraph graph fragments).links = (mergedGraph graph others).links := by
  apply Table.eq_of_find?
  intro place
  apply view_foldl_perm (fun graph : DependencyGraph => graph.links.find? place)
    (fun part => part.1.links.find? place) Link.earliest reorder
  · intro graph part member
    obtain ⟨tree, _, made⟩ := areFragments part member
    exact DependencyGraph.find?_links_merge (fragment_agree made).graphBuilt.placed graph place
  · exact areFragments.apart distinct fun _ _ value fragment => fragment.sources place value

theorem edges_perm (areFragments : AreFragments trees fragments) (distinct : DistinctNames trees)
    (reorder : fragments.Perm others) (calls : CallGraph) :
    (mergedCalls calls fragments).edges = (mergedCalls calls others).edges := by
  apply Table.eq_of_find?
  intro ends
  apply view_foldl_perm (fun calls : CallGraph => calls.edges.find? ends)
    (fun part => part.2.edges.find? ends) CallEdge.unite reorder
  · intro calls part member
    obtain ⟨tree, _, made⟩ := areFragments part member
    exact CallGraph.find?_edges_merge (fragment_agree made).callsBuilt.consistent calls ends
  · exact areFragments.apart distinct fun _ _ value fragment => fragment.callers ends value

/-- Merging a fragment adds names that were missing, and no more. -/
theorem find?_merge (areFragments : AreFragments trees fragments) (distinct : DistinctNames trees)
    {part : DependencyGraph × CallGraph} (member : part ∈ fragments) (graph : DependencyGraph)
    (name : String) :
    (graph.merge part.1).nodes.find? name =
      (graph.nodes.find? name).or (part.1.nodes.find? name) := by
  obtain ⟨tree, listed, made⟩ := areFragments part member
  exact (fragment_isFragment distinct listed made).namesOnly.find?_merge
    (fragment_agree made).graphBuilt graph name

theorem nodes_perm (areFragments : AreFragments trees fragments) (distinct : DistinctNames trees)
    (reorder : fragments.Perm others) (graph : DependencyGraph) :
    (mergedGraph graph fragments).nodes.mapValues Entity.unspelled =
      (mergedGraph graph others).nodes.mapValues Entity.unspelled := by
  apply Table.eq_of_find?
  intro name
  rw [Table.find?_mapValues, Table.find?_mapValues]
  apply view_foldl_perm
    (fun graph : DependencyGraph => (graph.nodes.find? name).map Entity.unspelled)
    (fun part => (part.1.nodes.find? name).map Entity.unspelled) (fun first _ => first) reorder
  · intro graph part member
    rw [areFragments.find?_merge distinct member]
    cases graph.nodes.find? name <;> cases part.1.nodes.find? name <;> rfl
  · -- all fragments that have the node say the same of it
    have plain : ∀ part ∈ fragments, ∀ node, part.1.nodes.find? name = some node →
        node.unspelled = undeclared name := by
      intro part member
      obtain ⟨tree, listed, made⟩ := areFragments part member
      exact (fragment_isFragment distinct listed made).namesOnly name
    intro first here second there
    cases one : first.1.nodes.find? name with
    | none => exact .inr (.inl rfl)
    | some node =>
      cases two : second.1.nodes.find? name with
      | none => exact .inr (.inr rfl)
      | some twin =>
        rw [Option.map_some, Option.map_some, plain first here node one,
          plain second there twin two]
        exact .inl rfl

/-- Fragments say nothing new of what is declared. -/
theorem find?_declared (areFragments : AreFragments trees fragments)
    (distinct : DistinctNames trees) {graph : DependencyGraph} {name : String} {node : Entity}
    (found : graph.nodes.find? name = some node) :
    (mergedGraph graph fragments).nodes.find? name = some node := by
  refine List.foldlRecOn
    (motive := fun graph : DependencyGraph => graph.nodes.find? name = some node) _ _ found ?_
  intro graph found part member
  rw [areFragments.find?_merge distinct member, found]
  rfl

theorem perm (areFragments : AreFragments trees fragments) (reorder : fragments.Perm others) :
    AreFragments trees others :=
  fun part member => areFragments part (reorder.symm.subset member)

theorem agree (areFragments : AreFragments trees fragments) :
    Agree (mergedGraph (declaredGraph trees) fragments)
      (mergedCalls (callableGraph (declaredGraph trees)) fragments) := by
  apply List.foldl_rel (declaredGraph_agree trees)
  intro part member graph calls agree
  obtain ⟨tree, _, made⟩ := areFragments part member
  exact agree.merge (fragment_agree made)

/-- Who can be called is known beforehand. -/
theorem bare?_mergedCalls (areFragments : AreFragments trees fragments)
    (distinct : DistinctNames trees) :
    (mergedCalls (callableGraph (declaredGraph trees)) fragments).bare? =
      (callableGraph (declaredGraph trees)).bare? := by
  refine List.foldlRecOn (motive := fun calls : CallGraph =>
    calls.bare? = (callableGraph (declaredGraph trees)).bare?) _ _ rfl ?_
  intro calls same part member
  obtain ⟨tree, listed, made⟩ := areFragments part member
  have fragment := fragment_isFragment distinct listed made
  funext name
  rw [CallGraph.bare?_merge (fragment_agree made).callsBuilt.consistent, same]
  cases found : part.2.bare? name with
  | none => exact Option.merge_none_right
  | some node =>
    obtain ⟨unknown, callable⟩ := fragment.callNodes name node found
    rw [CallGraph.mem_nodes_iff_bare?] at callable
    obtain ⟨existing, known⟩ := Option.isSome_iff_exists.mp callable
    rw [known, Option.merge_some_some, preferKnown_unknown _ unknown]

theorem calls_perm (areFragments : AreFragments trees fragments) (distinct : DistinctNames trees)
    (reorder : fragments.Perm others) :
    mergedCalls (callableGraph (declaredGraph trees)) fragments =
      mergedCalls (callableGraph (declaredGraph trees)) others := by
  have also := areFragments.perm reorder
  apply areFragments.agree.callsBuilt.consistent.eq_of_bare? also.agree.callsBuilt.consistent
  · intro name
    rw [areFragments.bare?_mergedCalls distinct, also.bare?_mergedCalls distinct]
  · intro ends
    rw [areFragments.edges_perm distinct reorder]

/-- All links start at units of the files. -/
theorem sources (areFragments : AreFragments trees fragments) (distinct : DistinctNames trees)
    {graph : DependencyGraph} (unlinked : graph.links = .empty) :
    (mergedGraph graph fragments).links.All fun place _ =>
      ∃ tree ∈ trees, Owns tree place.source := by
  refine List.foldlRecOn (motive := fun graph : DependencyGraph =>
    graph.links.All fun place _ => ∃ tree ∈ trees, Owns tree place.source) _ _ ?_ ?_
  · rw [unlinked]
    exact Table.all_empty
  · intro graph sources part member place link found
    obtain ⟨tree, listed, made⟩ := areFragments part member
    rw [DependencyGraph.find?_links_merge (fragment_agree made).graphBuilt.placed] at found
    cases present : graph.links.find? place with
    | some existing => exact sources place existing present
    | none =>
      rw [present, Option.merge_none_left] at found
      exact ⟨tree, listed, (fragment_isFragment distinct listed made).sources place link found⟩

theorem circularReferences_perm (areFragments : AreFragments trees fragments)
    (distinct : DistinctNames trees) (reorder : fragments.Perm others) :
    (mergedGraph (declaredGraph trees) fragments).circularReferences =
      (mergedGraph (declaredGraph trees) others).circularReferences := by
  apply circularReferences_congr areFragments.agree.graphBuilt.endsKnown
    (keys_of_unspelled (areFragments.nodes_perm distinct reorder _))
    (areFragments.links_perm distinct reorder _)
  intro place member
  obtain ⟨link, linked⟩ := Table.find?_of_mem_keys member
  obtain ⟨tree, listed, owns⟩ := areFragments.sources distinct
    (DependencyGraph.links_foldl_addNode ..) place link linked
  obtain ⟨pou, declared⟩ := distinct.find?_of_owns listed owns
  rw [areFragments.find?_declared distinct declared,
    (areFragments.perm reorder).find?_declared distinct declared]

end AreFragments

/-- Two results that differ in the spelling of names without a declaration at most. -/
structure Dependencies.Alike (first second : Dependencies) : Prop where
  nodes : first.graph.nodes.mapValues Entity.unspelled =
    second.graph.nodes.mapValues Entity.unspelled
  links : first.graph.links = second.graph.links
  calls : first.calls = second.calls
  cycles : first.cycles = second.cycles
  maxDepth : first.maxDepth = second.maxDepth
  filesAnalyzed : first.filesAnalyzed = second.filesAnalyzed
  incomplete : first.incomplete = second.incomplete

/-- The fragments of the files add up to the result. -/
theorem analyze_of_mapM {trees : List Tree} {cancelled : Bool}
    {fragments : List (DependencyGraph × CallGraph)}
    (made : (if cancelled then [] else trees).mapM (fragment (kindIn (declaredGraph trees))) =
      .ok fragments) :
    ∃ result, analyze trees cancelled = .ok result ∧
      result.graph = mergedGraph (declaredGraph trees) fragments ∧
      result.calls = mergedCalls (callableGraph (declaredGraph trees)) fragments ∧
      result.filesAnalyzed = (if cancelled then [] else trees).length ∧
      result.incomplete = decide ((if cancelled then [] else trees).length < trees.length) :=
  ⟨_, congrArg (· >>= _) made, rfl, rfl, rfl, rfl⟩

/-- Where no two declarations share a name, the order of the files does not matter to links, calls,
cycles and depth, and it does not matter to nodes but for the spelling of names without a
declaration. -/
theorem analyze_perm {trees reordered : List Tree} {cancelled : Bool} {result : Dependencies}
    (distinct : DistinctNames trees) (reorder : trees.Perm reordered)
    (done : analyze trees cancelled = .ok result) :
    ∃ other, analyze reordered cancelled = .ok other ∧ result.Alike other := by
  obtain ⟨fragments, made, _⟩ := exists_ok_of_bind done
  have files : (if cancelled then [] else trees).Perm (if cancelled then [] else reordered) := by
    cases cancelled
    · exact reorder
    · exact .nil
  obtain ⟨others, again, same⟩ := exists_perm_of_mapM files made
  have areFragments : AreFragments trees fragments := by
    intro part member
    obtain ⟨tree, inside, reached⟩ := exists_item_of_mapM made member
    refine ⟨tree, ?_, reached⟩
    cases cancelled
    · exact inside
    · cases inside
  obtain ⟨_, known, graph, calls, count, incomplete⟩ := analyze_of_mapM made
  obtain rfl := Except.ok.inj (done.symm.trans known)
  rw [distinct.declaredGraph_perm reorder] at again
  obtain ⟨other, found, otherGraph, otherCalls, otherCount, otherIncomplete⟩ :=
    analyze_of_mapM again
  rw [← distinct.declaredGraph_perm reorder] at otherGraph otherCalls
  have sameCalls : result.calls = other.calls := by
    rw [calls, otherCalls, areFragments.calls_perm distinct same]
  refine ⟨other, found, ?_, ?_, sameCalls, ?_, ?_, ?_, ?_⟩
  · rw [graph, otherGraph, areFragments.nodes_perm distinct same]
  · rw [graph, otherGraph, areFragments.links_perm distinct same]
  · rw [(analyze_findings done).1, (analyze_findings found).1, graph, otherGraph,
      areFragments.circularReferences_perm distinct same]
  · rw [(analyze_findings done).2, (analyze_findings found).2, sameCalls]
  · rw [count, otherCount, files.length_eq]
  · rw [incomplete, otherIncomplete, files.length_eq, reorder.length_eq]

/-- A file with a function block that calls another block. -/
def blockFile (file name base callee : String) : Tree :=
  let roots := [.pou {
    tag := ⟨0, .lines 1 20⟩
    kind := .functionBlock (some base) []
    name
    body := [.call (⟨1, .line 5⟩ : Mark) callee []] }]
  { file, source := "", roots, errors := []
    index := (ParentIndex.build roots).toOption.getD .empty }

/-- Two blocks that call each other. Their base is declared nowhere and is spelled in two ways. -/
def blockFiles : List Tree :=
  [blockFile "valve.st" "Valve" "Base" "pump", blockFile "pump.st" "Pump" "BASE" "VALVE"]

theorem analyze_perm_blockFiles :
    DistinctNames blockFiles ∧ blockFiles.Perm blockFiles.reverse ∧
    ∃ result other, analyze blockFiles false = .ok result ∧
      analyze blockFiles.reverse false = .ok other ∧ result.Alike other ∧
      result.graph.spelling "BASE" = "Base" ∧ other.graph.spelling "BASE" = "BASE" ∧
      other.cycles.map CircularReference.path = [["Pump", "Valve"]] := by
  have distinct : DistinctNames blockFiles := by decide +kernel
  have reorder : blockFiles.Perm blockFiles.reverse := (List.reverse_perm _).symm
  obtain ⟨result, done⟩ : ∃ result, analyze blockFiles false = .ok result := ⟨_, rfl⟩
  obtain ⟨other, again, alike⟩ := analyze_perm distinct reorder done
  have first : (analyze blockFiles false).map
      (fun result => (result.graph.spelling "BASE", result.cycles.map CircularReference.path)) =
        .ok ("Base", [["Pump", "Valve"]]) := by
    decide +kernel
  have second : (analyze blockFiles.reverse false).map (·.graph.spelling "BASE") = .ok "BASE" := by
    decide +kernel
  rw [done] at first
  rw [again] at second
  obtain ⟨spelled, cycles⟩ := Prod.mk.inj (Except.ok.inj first)
  rw [alike.cycles] at cycles
  exact ⟨distinct, reorder, result, other, done, again, alike, spelled, Except.ok.inj second,
    cycles⟩

end PlcAudit.Graph
