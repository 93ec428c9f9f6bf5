import PlcAudit.Proofs.Graph.CallRecord

/-!
Call graphs and what they came of. However nodes, calls and other graphs are put together, a graph
has the places of all calls that were added to it or to a graph that was merged into it, and counts
each once. A merged graph differs from one that is made in a single run only in nodes of unknown
kind that are declared later: merging puts the declaration in, adding does not.
-/

namespace PlcAudit.Graph.CallGraph

/-- What can be added to a call graph. -/
inductive Addition where
  | node (name : String) (kind : EntityKind) (file : Option String)
  | call (caller callee : String) (site : Site)
  deriving DecidableEq, Repr

def add (graph : CallGraph) : Addition → CallGraph
  | .node name kind file => graph.addNode name kind file
  | .call caller callee site => graph.addCall caller callee site

/-- The call graph that additions make, one after the other. -/
def build (additions : List Addition) : CallGraph := additions.foldl add {}

/-- How a call graph came about: by additions, and by merging other graphs. -/
inductive History where
  | start
  | add (before : History) (addition : Addition)
  | merge (before other : History)
  deriving Repr

def History.graph : History → CallGraph
  | .start => {}
  | .add before addition => before.graph.add addition
  | .merge before other => before.graph.merge other.graph

/-- All that was added to a graph, or to a graph that was merged into it. -/
def History.additions : History → List Addition
  | .start => []
  | .add before addition => before.additions ++ [addition]
  | .merge before other => before.additions ++ other.additions

variable {graph other : CallGraph}

theorem Built.add (built : graph.Built) (addition : Addition) : (graph.add addition).Built := by
  cases addition with
  | node name kind file => exact built.addNode name kind file
  | call caller callee site => exact built.addCall caller callee site

theorem built_build (additions : List Addition) : (build additions).Built :=
  List.foldlRecOn _ _ .empty fun _ built addition _ => built.add addition

/-! What an addition does to the look-ups -/

theorem find?_edges_add (graph : CallGraph) (addition : Addition) (ends : Pair String String) :
    (graph.add addition).edges.find? ends = (graph.edges.find? ends).merge .unite
      ((CallGraph.add {} addition).edges.find? ends) := by
  cases addition with
  | node name kind file => exact (Option.merge_none_right ..).symm
  | call caller callee site =>
    simp only [add, find?_edges_addCall, Table.find?_empty, Option.merge_none_left]

theorem bare?_add (graph : CallGraph) (addition : Addition) (name : String) :
    (graph.add addition).bare? name =
      (graph.bare? name).or ((CallGraph.add {} addition).bare? name) := by
  have fresh : CallGraph.bare? {} name = none := rfl
  cases addition with
  | node declared kind file => simp only [add, bare?_addNode, fresh, Option.none_or]
  | call caller callee site =>
    simp only [add, bare?_addCall, withEnds, bare?_addNode, fresh, Option.none_or, Option.or_assoc]

theorem find?_edges_build_append (first second : List Addition) (ends : Pair String String) :
    (build (first ++ second)).edges.find? ends =
      ((build first).edges.find? ends).merge .unite ((build second).edges.find? ends) := by
  rw [build, List.foldl_append]
  exact view_foldl (fun graph : CallGraph => graph.edges.find? ends) rfl
    (fun graph addition => find?_edges_add graph addition ends) _ second

/-- A name keeps the first node that it is given. -/
theorem bare?_build_append (first second : List Addition) (name : String) :
    (build (first ++ second)).bare? name =
      ((build first).bare? name).or ((build second).bare? name) := by
  rw [build, List.foldl_append]
  exact view_foldl (fun graph : CallGraph => graph.bare? name) rfl
    (fun graph addition => bare?_add graph addition name) _ second

/-! Merging and adding -/

def kind? (graph : CallGraph) (name : String) : Option EntityKind :=
  (graph.nodes.find? name).map CallNode.kind

/-- The name has a node of unknown kind in the first graph, and the second graph declares it. -/
def DeclaredLater (first second : CallGraph) (name : String) : Prop :=
  first.kind? name = some .unknown ∧ ∃ kind, kind ≠ .unknown ∧ second.kind? name = some kind

theorem kind?_eq_bare? (graph : CallGraph) (name : String) :
    graph.kind? name = (graph.bare? name).map CallNode.kind := by
  rw [kind?, bare?, Option.map_map]
  rfl

/-- Merging puts a declaration in the place of an unknown node. -/
theorem bare?_merge_declared (consistent : other.Consistent) {name : String}
    (later : DeclaredLater graph other name) :
    (graph.merge other).bare? name = other.bare? name := by
  obtain ⟨unknown, kind, known, declared⟩ := later
  rw [kind?_eq_bare?] at unknown declared
  obtain ⟨first, here, isUnknown⟩ := Option.map_eq_some_iff.mp unknown
  obtain ⟨second, there, rfl⟩ := Option.map_eq_some_iff.mp declared
  rw [bare?_merge consistent, here, there, Option.merge_some_some, preferKnown]
  simp [isUnknown, known]

/-- In any other case merging keeps the first node of a name. -/
theorem bare?_merge_undeclared (consistent : other.Consistent) {name : String}
    (never : ¬ DeclaredLater graph other name) :
    (graph.merge other).bare? name = (graph.bare? name).or (other.bare? name) := by
  rw [bare?_merge consistent]
  rw [DeclaredLater, kind?_eq_bare?, kind?_eq_bare?] at never
  cases here : graph.bare? name with
  | none => rw [Option.merge_none_left, Option.none_or]
  | some first =>
    cases there : other.bare? name with
    | none => rfl
    | some second =>
      have kept : ¬ (first.kind = .unknown ∧ second.kind ≠ .unknown) := by
        rintro ⟨unknown, known⟩
        exact never ⟨by rw [here, Option.map_some, unknown], second.kind, known, by rw [there]; rfl⟩
      rw [Option.merge_some_some, Option.some_or, preferKnown, if_neg (by simpa using kept)]

theorem find?_edges_merge_build (first second : List Addition) (ends : Pair String String) :
    ((build first).merge (build second)).edges.find? ends =
      (build (first ++ second)).edges.find? ends := by
  rw [find?_edges_merge (built_build second).consistent, find?_edges_build_append]

theorem edges_merge_build (first second : List Addition) :
    ((build first).merge (build second)).edges = (build (first ++ second)).edges :=
  Table.eq_of_find? (find?_edges_merge_build first second)

theorem incoming_merge_build (first second : List Addition) (name : String) :
    ((build first).merge (build second)).incoming name =
      (build (first ++ second)).incoming name := by
  rw [incoming, incoming, edges_merge_build]

theorem isSome_bare?_merge_build (first second : List Addition) (name : String) :
    (((build first).merge (build second)).bare? name).isSome =
      ((build (first ++ second)).bare? name).isSome := by
  rw [bare?_merge (built_build second).consistent, bare?_build_append, Option.isSome_merge,
    Option.isSome_or]

theorem bare?_of_declaredLater {first second : List Addition} {name : String}
    (later : DeclaredLater (build first) (build second) name) :
    ((build first).merge (build second)).bare? name = (build second).bare? name ∧
      (build (first ++ second)).bare? name = (build first).bare? name := by
  refine ⟨bare?_merge_declared (built_build second).consistent later, ?_⟩
  obtain ⟨node, here, _⟩ := Option.map_eq_some_iff.mp (kind?_eq_bare? .. ▸ later.1)
  rw [bare?_build_append, here, Option.some_or]

theorem bare?_of_not_declaredLater {first second : List Addition} {name : String}
    (never : ¬ DeclaredLater (build first) (build second) name) :
    ((build first).merge (build second)).bare? name = (build (first ++ second)).bare? name := by
  rw [bare?_merge_undeclared (built_build second).consistent never, bare?_build_append]

/-- A graph that is merged of two and the one that is made of all additions in a single run have the
same edges, the same names and the same numbers of calls. Their nodes differ where the first part
has a node of unknown kind that the second part declares, and nowhere else: there the merged graph
has the declaration, and the single run keeps the unknown node. -/
theorem merge_calls (first second : List Addition) :
    ((build first).merge (build second)).edges = (build (first ++ second)).edges ∧
    ((build first).merge (build second)).nodes.keys = (build (first ++ second)).nodes.keys ∧
    (∀ name, (((build first).merge (build second)).nodes.find? name).map CallNode.callCount =
      ((build (first ++ second)).nodes.find? name).map CallNode.callCount) ∧
    (∀ name, DeclaredLater (build first) (build second) name →
      ((build first).merge (build second)).bare? name = (build second).bare? name ∧
        (build (first ++ second)).bare? name = (build first).bare? name) ∧
    (∀ name, ¬ DeclaredLater (build first) (build second) name →
      ((build first).merge (build second)).nodes.find? name =
        (build (first ++ second)).nodes.find? name) ∧
    ((build first).merge (build second) = build (first ++ second) ↔
      ∀ name, ¬ DeclaredLater (build first) (build second) name) := by
  have merged := ((built_build first).merge (built_build second)).consistent
  have whole := (built_build (first ++ second)).consistent
  refine ⟨edges_merge_build first second, ?_, fun name => ?_, fun _ => bare?_of_declaredLater,
    fun name never => ?_, ?_, ?_⟩
  · apply Table.keys_eq_of_isSome
    simpa only [bare?, Option.isSome_map] using isSome_bare?_merge_build first second
  · have both := isSome_bare?_merge_build first second name
    rw [merged.find?_nodes, whole.find?_nodes, incoming_merge_build]
    cases here : ((build first).merge (build second)).bare? name <;>
      cases there : (build (first ++ second)).bare? name <;> simp_all
  · rw [merged.find?_nodes, whole.find?_nodes, incoming_merge_build,
      bare?_of_not_declaredLater never]
  · intro same name later
    obtain ⟨left, right⟩ := bare?_of_declaredLater later
    obtain ⟨unknown, kind, known, found⟩ := later
    rw [kind?_eq_bare?, ← right, ← same, left, ← kind?_eq_bare?, found] at unknown
    exact known (Option.some.inj unknown)
  · intro never
    apply merged.eq_of_bare? whole
    · exact fun name => bare?_of_not_declaredLater (never name)
    · exact find?_edges_merge_build first second

/-- Two calls of a function that is declared nowhere. -/
def callsOnly : List Addition :=
  [.call "main" "scale" ⟨"main.st", 4⟩, .call "Main" "Scale" ⟨"main.st", 9⟩]

/-- The declaration of the function, and one of the calls again. -/
def declarationAndCall : List Addition :=
  [.node "Scale" .function (some "scale.st"), .call "MAIN" "SCALE" ⟨"main.st", 4⟩]

theorem merge_calls_callsOnly :
    ((build callsOnly).merge (build declarationAndCall)).bare? "SCALE" =
        some { name := "Scale", kind := .function, file := some "scale.st" } ∧
      ((build callsOnly).merge (build declarationAndCall)).nodes.find? "MAIN" =
        some { name := "main", kind := .unknown } ∧
      (((build callsOnly).merge (build declarationAndCall)).nodes.find? "SCALE").map
        CallNode.callCount = some 2 := by
  obtain ⟨_, _, counts, declared, undeclared, _⟩ := merge_calls callsOnly declarationAndCall
  refine ⟨?_, ?_, ?_⟩
  · rw [(declared "SCALE" ⟨by decide, .function, by decide, by decide⟩).1]
    decide
  · rw [undeclared "MAIN" ?_]
    · decide
    · rintro ⟨_, kind, known, found⟩
      exact known (Option.some.inj (found.symm.trans (by decide)))
  · rw [counts]
    decide

/-- A declaration that is added behind a call is lost, and merged behind it is not. -/
theorem declaration_behind_call :
    (build (callsOnly ++ declarationAndCall)).kind? "SCALE" = some .unknown ∧
      ((build callsOnly).merge (build declarationAndCall)).kind? "SCALE" = some .function ∧
      (build callsOnly).merge (build declarationAndCall) ≠
        build (callsOnly ++ declarationAndCall) := by
  have added : (build (callsOnly ++ declarationAndCall)).kind? "SCALE" = some .unknown := by decide
  have merged : ((build callsOnly).merge (build declarationAndCall)).kind? "SCALE" =
      some .function := by decide
  refine ⟨added, merged, fun same => ?_⟩
  rw [same, added] at merged
  cases merged

/-! Histories -/

theorem History.built (history : History) : history.graph.Built := by
  induction history with
  | start => exact .empty
  | add before addition built => exact built.add addition
  | merge before other built also => exact built.merge also

theorem hasSite_of_merge {grown : CallGraph} (joins : ∀ ends, grown.edges.find? ends =
      (graph.edges.find? ends).merge .unite (other.edges.find? ends))
    (caller callee : String) (site : Site) :
    grown.hasSite caller callee site = true ↔
      graph.hasSite caller callee site = true ∨ other.hasSite caller callee site = true := by
  have either (first second : CallEdge) : (first.unite second).sites.contains site =
      (first.sites.contains site || second.sites.contains site) := by
    rw [Bool.eq_iff_iff, Bool.or_eq_true]
    simp only [Table.contains_iff_mem_keys, CallEdge.mem_sites_unite]
  rw [← Bool.or_eq_true, hasSite, edge?, joins, Option.any_merge either]
  rfl

/-- One addition makes a place known if it is a call there. -/
theorem hasSite_single (addition : Addition) (caller callee : String) (site : Site) :
    (CallGraph.add {} addition).hasSite caller callee site = true ↔
      ∃ first second, addition = .call first second site ∧ key first = key caller ∧
        key second = key callee := by
  cases addition with
  | node name kind file => simp [add, addNode, hasSite, edge?]
  | call first second place =>
    rw [hasSite, edge?, add, find?_edges_addCall, Table.find?_empty, Option.merge_none_left]
    split
    · rename_i same
      obtain ⟨sameCaller, sameCallee⟩ := Pair.mk.inj same
      rw [Option.any_some, Table.contains_iff_mem_keys, CallEdge.mem_sites_ofSites,
        List.mem_singleton]
      simp [sameCaller, sameCallee, eq_comm]
    · rename_i different
      simp only [Option.any_none, Addition.call.injEq, Bool.false_eq_true, false_iff]
      rintro ⟨_, _, ⟨rfl, rfl, _⟩, sameCaller, sameCallee⟩
      exact different (by rw [sameCaller, sameCallee])

/-- The known places of calls are those of all calls that were added. -/
theorem History.hasSite_iff (history : History) (caller callee : String) (site : Site) :
    history.graph.hasSite caller callee site = true ↔
      ∃ first second, .call first second site ∈ history.additions ∧ key first = key caller ∧
        key second = key callee := by
  induction history with
  | start => simp [History.graph, History.additions, hasSite, edge?]
  | add before addition ih =>
    rw [History.graph, hasSite_of_merge (find?_edges_add before.graph addition), ih,
      hasSite_single, History.additions]
    simp only [List.mem_append, List.mem_singleton]
    grind
  | merge before other ih also =>
    rw [History.graph, hasSite_of_merge (find?_edges_merge other.built.consistent before.graph), ih,
      also, History.additions]
    simp only [List.mem_append]
    grind

theorem Consistent.merge_self (consistent : graph.Consistent) : graph.merge graph = graph := by
  apply (consistent.merge consistent).eq_of_bare? consistent
  · intro name
    rw [bare?_merge consistent]
    exact Std.IdempotentOp.idempotent _
  · intro ends
    rw [find?_edges_merge consistent]
    exact Std.IdempotentOp.idempotent _

/-- The books of a call graph, however it came about: nodes stand under the keys of their names, the
ends of edges are nodes, every edge has places in increasing order, these are the places of all
calls that were added for its ends, every node counts the places on the edges to it, and the graph
adds nothing to itself. -/
theorem callGraph_books (history : History) :
    (∀ name node, history.graph.nodes.find? name = some node → name = key node.name) ∧
    (∀ ends ∈ history.graph.edges.keys,
      ends.first ∈ history.graph.nodes.keys ∧ ends.second ∈ history.graph.nodes.keys) ∧
    (∀ ends edge, history.graph.edges.find? ends = some edge → edge.sites.keys ≠ [] ∧
      edge.sites.keys.Pairwise fun earlier later => compare earlier later = .lt) ∧
    (∀ caller callee site, history.graph.hasSite caller callee site = true ↔
      ∃ first second, .call first second site ∈ history.additions ∧ key first = key caller ∧
        key second = key callee) ∧
    (∀ name node, history.graph.nodes.find? name = some node →
      node.callCount = history.graph.incoming name) ∧
    history.graph.merge history.graph = history.graph := by
  have consistent := history.built.consistent
  refine ⟨?_, consistent.ends, ?_, history.hasSite_iff, consistent.counts, consistent.merge_self⟩
  · intro name node found
    exact (consistent.nodes name node found).symm
  · intro ends edge found
    exact ⟨consistent.recorded ends edge found, edge.sites.keys_sorted⟩

/-- Two spellings of one call, merged with a repetition of it and with what was there before. -/
def repeatedCalls : History :=
  .merge
    (.merge
      (.add (.add .start (.call "main" "scale" ⟨"main.st", 9⟩))
        (.call "MAIN" "Scale" ⟨"main.st", 4⟩))
      (.add .start (.call "Main" "SCALE" ⟨"main.st", 9⟩)))
    (.add .start (.call "main" "scale" ⟨"main.st", 9⟩))

theorem callGraph_books_repeatedCalls :
    repeatedCalls.graph.nodes.find? "SCALE" =
        some { name := "scale", kind := .unknown, callCount := 2 } ∧
      repeatedCalls.graph.incoming "SCALE" = 2 ∧
      repeatedCalls.graph.hasSite "main" "scale" ⟨"main.st", 4⟩ = true ∧
      repeatedCalls.graph.merge repeatedCalls.graph = repeatedCalls.graph := by
  obtain ⟨_, _, _, sites, counts, same⟩ := callGraph_books repeatedCalls
  have found : repeatedCalls.graph.nodes.find? "SCALE" =
      some { name := "scale", kind := .unknown, callCount := 2 } := by decide
  refine ⟨found, (counts _ _ found).symm, ?_, same⟩
  exact (sites "main" "scale" ⟨"main.st", 4⟩).mpr ⟨"MAIN", "Scale", by decide, by decide, by decide⟩

end PlcAudit.Graph.CallGraph
