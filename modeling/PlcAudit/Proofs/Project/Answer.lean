import PlcAudit.Graph.Dot
import PlcAudit.Proofs.Flow.Position
import PlcAudit.Proofs.Flow.ReadableBase
import PlcAudit.Proofs.Graph.ReadableType
import PlcAudit.Proofs.Graph.Stack
import PlcAudit.Proofs.Project.Parallel

/-!
Projects whose texts can be read. Both built-in analyses of such a project come to a result, in
whatever order its files finish. Whatever is asked of the result is answered, and no position, cut
or base on the way is out of range.
-/

namespace PlcAudit

open Code

namespace Graph

/-! What is asked of dependencies -/

theorem length_le_lineFeeds {α : Type} {statement : α → String}
    (ended : ∀ item, '\n' ∈ (statement item).toList) (items : List α) :
    items.length ≤ (String.join (items.map statement)).toList.count '\n' := by
  rw [String.toList_join]
  induction items with
  | nil => exact Nat.zero_le _
  | cons item rest ih =>
    have here := List.one_le_count_iff.mpr (ended item)
    rw [List.map_cons, List.flatMap_cons, List.count_append, List.length_cons]
    omega

theorem lineFeed_mem_append (text : String) {ending : String} (ended : '\n' ∈ ending.toList) :
    '\n' ∈ (text ++ ending).toList := by
  rw [String.toList_append]
  exact List.mem_append_right _ ended

theorem lineFeed_mem_nodeStatement (node : Entity) : '\n' ∈ (nodeStatement node).toList := by
  have ended : '\n' ∈ "];\n".toList := by decide
  exact lineFeed_mem_append _ ended

theorem lineFeed_mem_linkStatement (link : Link) : '\n' ∈ (linkStatement link).toList := by
  have ended : '\n' ∈ "\"];\n".toList := by decide
  exact lineFeed_mem_append _ (lineFeed_mem_append _ ended)

theorem count_inner_le (c : Char) (front first second back : String) :
    first.toList.count c + second.toList.count c ≤
      (front ++ first ++ second ++ back).toList.count c := by
  simp only [String.toList_append, List.count_append]
  omega

/-- A drawing has a line of its own for every node and every link. -/
theorem lineFeeds_dot (graph : DependencyGraph) :
    graph.nodes.size + graph.links.size ≤ graph.dot.toList.count '\n' := by
  have nodes := length_le_lineFeeds lineFeed_mem_nodeStatement graph.nodes.values
  have links := length_le_lineFeeds lineFeed_mem_linkStatement graph.links.values
  simp only [Table.values, List.length_map] at nodes links
  exact Nat.le_trans (Nat.add_le_add nodes links) (count_inner_le ..)

/-- Whatever is asked of dependencies is answered: cycles, recursion and depths by searches that
halt on a stack, and issues and a drawing with something for everything that there is. -/
structure Dependencies.Answered (dependencies : Dependencies) : Prop where
  circular : ∃ cycles, dependencies.graph.adjacency.FindsCycles cycles ∧
    dependencies.cycles = cycles.map dependencies.graph.circularReference
  recursive : ∃ cycles, dependencies.calls.adjacency.FindsCycles cycles ∧
    ∀ name, name ∈ dependencies.calls.recursiveNodes ↔
      ∃ cycle ∈ cycles, ∃ node ∈ cycle, dependencies.calls.spelling node = name
  depth : ∀ name,
    dependencies.calls.nodes.contains (key name) = false ∧
      dependencies.calls.depthFrom? name = none ∨
    (∃ edges, dependencies.calls.adjacency.FindsDepth (key name) (.ok edges) ∧
      dependencies.calls.depthFrom? name = some (.bounded edges)) ∨
    ∃ cycle, dependencies.calls.adjacency.FindsDepth (key name) (.error cycle) ∧
      dependencies.calls.depthFrom? name =
        some (.undefined (cycle.map dependencies.calls.spelling))
  maxDepth :
    (∃ edges, dependencies.calls.adjacency.FindsMaxDepth (.ok edges) ∧
      dependencies.maxDepth = .bounded edges) ∨
    ∃ cycle, dependencies.calls.adjacency.FindsMaxDepth (.error cycle) ∧
      dependencies.maxDepth = .undefined (cycle.map dependencies.calls.spelling)
  issues : dependencies.issues.length = dependencies.totalIssues
  drawing : dependencies.graph.nodes.size + dependencies.graph.links.size ≤
    dependencies.graph.dot.toList.count '\n'

theorem mem_recursiveNodes (calls : CallGraph) (name : String) :
    name ∈ calls.recursiveNodes ↔
      ∃ cycle ∈ calls.adjacency.cycles, ∃ node ∈ cycle, calls.spelling node = name := by
  simp only [CallGraph.recursiveNodes, List.mem_map, CallGraph.mem_recursiveKeys]
  constructor
  · rintro ⟨node, ⟨cycle, found, inside⟩, spelled⟩
    exact ⟨cycle, found, node, inside, spelled⟩
  · rintro ⟨cycle, found, node, inside, spelled⟩
    exact ⟨node, ⟨cycle, found, inside⟩, spelled⟩

theorem answered_of_analyze {trees : List Tree} {cancelled : Bool} {dependencies : Dependencies}
    (done : analyze trees cancelled = .ok dependencies) : dependencies.Answered := by
  have agree := analyze_agree done
  obtain ⟨listed, deepest⟩ := analyze_findings done
  have closed := agree.graphBuilt.endsKnown.closed
  have callsClosed := agree.callsBuilt.known.closed
  exact {
    circular := ⟨_, closed.findsCycles, listed⟩
    recursive := ⟨_, callsClosed.findsCycles, mem_recursiveNodes dependencies.calls⟩
    depth := by
      intro name
      cases present : dependencies.calls.nodes.contains (key name) with
      | false => exact .inl ⟨rfl, (CallGraph.depthFrom?_eq_none_iff ..).mpr present⟩
      | true =>
        have halts := callsClosed.findsDepth ((Table.contains_iff_mem_keys ..).mp present)
        cases found : dependencies.calls.adjacency.depthFrom (key name) with
        | ok edges =>
          rw [found] at halts
          exact .inr (.inl ⟨edges, halts, CallGraph.depthFrom?_of_ok present found⟩)
        | error cycle =>
          rw [found] at halts
          exact .inr (.inr ⟨cycle, halts, CallGraph.depthFrom?_of_error present found⟩)
    maxDepth := by
      have halts := callsClosed.findsMaxDepth
      rw [deepest, CallGraph.maxDepth]
      cases found : dependencies.calls.adjacency.maxDepth with
      | ok edges =>
        rw [found] at halts
        exact .inl ⟨edges, halts, rfl⟩
      | error cycle =>
        rw [found] at halts
        exact .inr ⟨cycle, halts, rfl⟩
    issues := List.length_map ..
    drawing := lineFeeds_dot dependencies.graph }

end Graph

namespace Usage

theorem exists_analysis {trees : List Tree} (legible : ∀ tree ∈ trees, tree.Legible)
    (options : Options) (project : String) (cancelled : Bool) :
    ∃ analysis, analyze options project trees cancelled = .ok analysis := by
  unfold analyze
  refine Graph.exists_ok_bind (Graph.exists_ok_mapM fun tree member => ?_) fun flows => ⟨_, rfl⟩
  cases cancelled with
  | true => cases member
  | false =>
    refine Graph.exists_ok_mapM fun pou declared => ?_
    have sound := Flow.pouHasBadBase_of_legible ((legible tree member).pou declared)
    exact ⟨_, by rw [Flow.analyzePou, sound]; rfl⟩

/-- Every finding becomes an issue. -/
theorem length_issues (analysis : Analysis) : analysis.issues.length = analysis.totalIssues := by
  simp [Analysis.issues, Analysis.totalIssues, Nat.add_assoc]

end Usage

namespace Project

/-- Both analyses of legible files return, one file after another or side by side, and so does
whatever is asked of their results. On the way, statements and clauses are read within the bounds of
their lists. -/
theorem analyses_return {trees : List Tree} (legible : ∀ tree ∈ trees, tree.Legible) :
    (∀ options project cancelled, ∃ analysis,
      Usage.analyze options project trees cancelled = .ok analysis ∧
        analysis.issues.length = analysis.totalIssues) ∧
    (∀ options project (schedule : Schedule trees), ∃ analysis,
      Usage.analyzeBeside options project schedule = .ok analysis ∧
        analysis.issues.length = analysis.totalIssues) ∧
    (∀ cancelled, ∃ dependencies,
      Graph.analyze trees cancelled = .ok dependencies ∧ dependencies.Answered) ∧
    (∀ schedule : Schedule trees, ∃ dependencies,
      Graph.analyzeBeside schedule = .ok dependencies ∧ dependencies.Answered) ∧
    (∀ context assigned body,
      Flow.PassesBlock context body 0 { assigned } (Flow.blockFlow context assigned body)) ∧
    ∀ context before branches clauses,
      Flow.PassesClauses context before clauses 1 branches
        (Flow.clauseFlow context before branches clauses) := by
  refine ⟨fun options project cancelled => ?_, fun options project schedule => ?_,
    fun cancelled => ?_, fun schedule => ?_, fun context assigned body => ?_,
    fun context before branches clauses => ?_⟩
  · obtain ⟨analysis, done⟩ := Usage.exists_analysis legible options project cancelled
    exact ⟨analysis, done, Usage.length_issues analysis⟩
  · obtain ⟨analysis, done⟩ := Usage.exists_analysis legible options project false
    exact ⟨analysis, (Usage.analyzeBeside_eq_ok_iff ..).mpr done, Usage.length_issues analysis⟩
  · obtain ⟨dependencies, done⟩ := Graph.exists_dependencies legible cancelled
    exact ⟨dependencies, done, Graph.answered_of_analyze done⟩
  · obtain ⟨dependencies, done⟩ := Graph.exists_dependencies legible false
    exact ⟨dependencies, (Graph.analyzeBeside_eq_ok_iff ..).mpr done,
      Graph.answered_of_analyze done⟩
  · exact Flow.passesBlock_from context body (List.drop_zero ..) assigned [] []
  · exact Flow.passesClauses_from context before clauses (List.drop_zero ..) branches

/-- Two blocks that call each other, one of them through an array of pointers. It has a constant in
base 16, and its branches are decided by a number in base 2 and by one behind a name that is no
base. -/
def basedFiles : List Tree :=
  let literal (id line : Nat) (text : String) : Expr Mark := .literal ⟨id, .line line⟩ .integer text
  let variable_ (id line : Nat) (name : String) : Expr Mark :=
    .variable ⟨id, .line line⟩ name [] [] false
  let call (id line : Nat) (name : String) : Stmt Mark := .call ⟨id, .line line⟩ name []
  let file (name : String) (roots : List (Root Mark)) : Tree :=
    { file := name, source := "", roots, errors := []
      index := (ParentIndex.build roots).toOption.getD .empty }
  [file "valve.st" [.pou {
      tag := ⟨0, .lines 1 9⟩
      kind := .functionBlock none []
      name := "Valve"
      blocks := [
        { tag := ⟨1, .line 2⟩, scope := .local_, constant := true
          decls := [{ tag := ⟨2, .line 2⟩, name := "limit", dataType := "INT"
                      initial := some (literal 3 2 "16#F") }] },
        { tag := ⟨4, .line 3⟩, scope := .local_
          decls := [{ tag := ⟨5, .line 3⟩, name := "pumps"
                      dataType := "ARRAY[1..2] OF POINTER TO Pump" }] }]
      body := [.cond ⟨6, .lines 4 8⟩
        (.binary ⟨7, .line 4⟩ .less (variable_ 8 4 "limit") (literal 9 4 "2#1_0")) []
        [.mk (.lines 6 7)
          (.binary ⟨10, .line 6⟩ .equal (variable_ 11 6 "limit") (literal 12 6 "INT#7"))
          [call 13 7 "pumps"]] none] }],
    file "pump.st" [.pou {
      tag := ⟨0, .lines 1 3⟩
      kind := .functionBlock none []
      name := "Pump"
      body := [call 1 2 "Valve"] }]]

theorem analyses_return_basedFiles :
    (∀ tree ∈ basedFiles, tree.Legible) ∧
    (∃ analysis, Usage.analyze { strict := true } "plant" basedFiles false = .ok analysis ∧
      analysis.issues.length = analysis.totalIssues) ∧
    ∃ dependencies, Graph.analyze basedFiles false = .ok dependencies ∧ dependencies.Answered ∧
      dependencies.cycles.map Graph.CircularReference.path = [["Pump", "Valve"]] := by
  have legible : ∀ tree ∈ basedFiles, tree.Legible := by decide +kernel
  obtain ⟨usage, _, dependencies, _⟩ := analyses_return legible
  obtain ⟨found, done, answered⟩ := dependencies false
  have cycles : (Graph.analyze basedFiles false).map
      (·.cycles.map Graph.CircularReference.path) = .ok [["Pump", "Valve"]] := by
    decide +kernel
  rw [done] at cycles
  exact ⟨legible, usage { strict := true } "plant" false, found, done, answered,
    Except.ok.inj cycles⟩

end Project

end PlcAudit
