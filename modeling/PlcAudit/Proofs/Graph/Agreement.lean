import PlcAudit.Graph.Project
import PlcAudit.Proofs.Graph.CallRecord
import PlcAudit.Proofs.Graph.Recursion

/-!
The two graphs of a project. Every call is entered in both: the dependencies keep its first line,
the call graph keeps all its places. The graphs agree on who calls whom and on the first line of the
calls, after every unit, after every file and for the project as a whole. A cycle of calls therefore
shows among the circular references.
-/

namespace PlcAudit.Graph

open Code

/-! Work that may fail -/

theorem exists_ok_of_bind {ε α β : Type} {work : Except ε α} {next : α → Except ε β} {result : β}
    (done : (work >>= next) = .ok result) :
    ∃ value, work = .ok value ∧ next value = .ok result := by
  cases work with
  | error fault => cases done
  | ok value => exact ⟨value, rfl, done⟩

theorem exists_ok_of_map {ε α β : Type} {work : Except ε α} {view : α → β} {result : β}
    (done : work.map view = .ok result) : ∃ value, work = .ok value ∧ view value = result := by
  cases work with
  | error fault => cases done
  | ok value => exact ⟨value, rfl, Except.ok.inj done⟩

theorem exists_ok_bind {ε α β : Type} {work : Except ε α} {next : α → Except ε β}
    (first : ∃ value, work = .ok value) (second : ∀ value, ∃ result, next value = .ok result) :
    ∃ result, (work >>= next) = .ok result := by
  obtain ⟨value, rfl⟩ := first
  exact second value

theorem exists_ok_map {ε α β : Type} {work : Except ε α} (done : ∃ value, work = .ok value)
    (view : α → β) : ∃ result, work.map view = .ok result := by
  obtain ⟨value, rfl⟩ := done
  exact ⟨view value, rfl⟩

theorem exists_ok_mapM {ε α β : Type} {work : α → Except ε β} {items : List α}
    (each : ∀ item ∈ items, ∃ result, work item = .ok result) :
    ∃ results, items.mapM work = .ok results := by
  induction items with
  | nil => exact ⟨[], rfl⟩
  | cons item rest ih =>
    obtain ⟨first, later⟩ := List.forall_mem_cons.mp each
    rw [List.mapM_cons]
    exact exists_ok_bind first fun _ => exists_ok_bind (ih later) fun _ => ⟨_, rfl⟩

/-- Where the work on all items of a list is done, every result comes of an item. -/
theorem exists_item_of_mapM {ε α β : Type} {work : α → Except ε β} {items : List α}
    {results : List β} (done : items.mapM work = .ok results) {result : β}
    (member : result ∈ results) : ∃ item ∈ items, work item = .ok result := by
  induction items generalizing results with
  | nil =>
    cases done
    cases member
  | cons item rest ih =>
    rw [List.mapM_cons] at done
    obtain ⟨value, made, done⟩ := exists_ok_of_bind done
    obtain ⟨values, more, done⟩ := exists_ok_of_bind done
    cases done
    rcases List.mem_cons.mp member with rfl | later
    · exact ⟨item, List.mem_cons_self, made⟩
    · obtain ⟨source, inside, also⟩ := ih more later
      exact ⟨source, List.mem_cons_of_mem item inside, also⟩

/-- Where the work on all items of a list is done, every item has a result. -/
theorem exists_result_of_mapM {ε α β : Type} {work : α → Except ε β} {items : List α}
    {results : List β} (done : items.mapM work = .ok results) {item : α} (member : item ∈ items) :
    ∃ result ∈ results, work item = .ok result := by
  induction items generalizing results with
  | nil => cases member
  | cons first rest ih =>
    rw [List.mapM_cons] at done
    obtain ⟨value, made, done⟩ := exists_ok_of_bind done
    obtain ⟨values, more, done⟩ := exists_ok_of_bind done
    cases done
    rcases List.mem_cons.mp member with rfl | later
    · exact ⟨value, List.mem_cons_self, made⟩
    · obtain ⟨result, inside, also⟩ := ih more later
      exact ⟨result, List.mem_cons_of_mem value inside, also⟩

/-! Least numbers -/

theorem min?_append (first second : List Nat) :
    (first ++ second).min? = first.min?.merge min second.min? := by
  induction first with
  | nil => rw [List.nil_append, List.min?_nil, Option.merge_none_left]
  | cons number rest ih =>
    rw [List.cons_append, List.min?_cons, List.min?_cons, ih]
    cases rest.min? <;> cases second.min? <;> simp [Nat.min_assoc]

/-- The least number is a matter of which numbers there are. -/
theorem min?_congr {first second : List Nat} (same : ∀ number, number ∈ first ↔ number ∈ second) :
    first.min? = second.min? := by
  apply Option.ext
  intro least
  simp only [List.min?_eq_some_iff, same]

/-! The first line of the calls between two nodes -/

/-- The line of the link for the calls from one node to another. -/
def DependencyGraph.callLine? (graph : DependencyGraph) (caller callee : String) : Option Nat :=
  (graph.links.find? ⟨caller, callee, .call⟩).map Link.line

/-- The first line among the places of an edge. -/
def CallEdge.firstLine? (edge : CallEdge) : Option Nat :=
  (edge.sites.keys.map Pair.second).min?

/-- The first line among the places where one node calls another. -/
def CallGraph.callLine? (graph : CallGraph) (caller callee : String) : Option Nat :=
  (graph.edges.find? ⟨caller, callee⟩).bind CallEdge.firstLine?

namespace DependencyGraph

variable {graph other : DependencyGraph}

theorem called_iff_callLine? (graph : DependencyGraph) (caller callee : String) :
    graph.Called caller callee ↔ (graph.callLine? caller callee).isSome = true := by
  rw [callLine?, Option.isSome_map]
  rfl

theorem line_merge_earliest (first second : Option Link) :
    (first.merge Link.earliest second).map Link.line =
      (first.map Link.line).merge min (second.map Link.line) := by
  cases first <;> cases second <;> rfl

theorem callLine?_merge (placed : other.Placed) (graph : DependencyGraph)
    (caller callee : String) :
    (graph.merge other).callLine? caller callee =
      (graph.callLine? caller callee).merge min (other.callLine? caller callee) := by
  rw [callLine?, find?_links_merge placed, line_merge_earliest]
  rfl

theorem callLine?_addLink (graph : DependencyGraph) (link : Link) (caller callee : String) :
    (graph.addLink link).callLine? caller callee = (graph.callLine? caller callee).merge min
      (if ⟨caller, callee, .call⟩ = linkKey link.source link.target link.kind then some link.line
        else none) := by
  rw [callLine?, find?_addLink, line_merge_earliest, apply_ite (Option.map Link.line)]
  rfl

end DependencyGraph

namespace CallEdge

theorem firstLine?_unite (first second : CallEdge) :
    (first.unite second).firstLine? = first.firstLine?.merge min second.firstLine? := by
  rw [firstLine?, firstLine?, firstLine?, ← min?_append, ← List.map_append]
  apply min?_congr
  intro line
  simp only [List.mem_map, List.mem_append, mem_sites_unite]

theorem firstLine?_isSome {edge : CallEdge} (recorded : edge.sites.keys ≠ []) :
    edge.firstLine?.isSome = true := by
  rw [Option.isSome_iff_ne_none, firstLine?, ne_eq, List.min?_eq_none_iff, List.map_eq_nil_iff]
  exact recorded

end CallEdge

namespace CallGraph

variable {graph other : CallGraph}

theorem Consistent.calls_iff_callLine? (consistent : graph.Consistent) (caller callee : String) :
    graph.Calls caller callee ↔ (graph.callLine? caller callee).isSome = true := by
  rw [Calls, Table.contains, callLine?]
  cases found : graph.edges.find? ⟨caller, callee⟩ with
  | none => rfl
  | some edge =>
    have placed := CallEdge.firstLine?_isSome (consistent.recorded _ edge found)
    simp [placed]

theorem firstLine?_merge_unite (first second : Option CallEdge) :
    (first.merge .unite second).bind CallEdge.firstLine? =
      (first.bind CallEdge.firstLine?).merge min (second.bind CallEdge.firstLine?) := by
  cases first <;> cases second <;> simp [CallEdge.firstLine?_unite]

theorem callLine?_merge (consistent : other.Consistent) (graph : CallGraph)
    (caller callee : String) :
    (graph.merge other).callLine? caller callee =
      (graph.callLine? caller callee).merge min (other.callLine? caller callee) := by
  rw [callLine?, find?_edges_merge consistent, firstLine?_merge_unite]
  rfl

theorem callLine?_addCall (graph : CallGraph) (source target : String) (site : Site)
    (caller callee : String) :
    (graph.addCall source target site).callLine? caller callee =
      (graph.callLine? caller callee).merge min
        (if (⟨caller, callee⟩ : Pair String String) = ⟨key source, key target⟩ then
          some site.second else none) := by
  rw [callLine?, find?_edges_addCall, firstLine?_merge_unite,
    apply_ite (Option.bind · CallEdge.firstLine?)]
  rfl

end CallGraph

/-! Graphs that agree -/

/-- Both graphs come of their operations, and know the same calls with the same first lines. -/
structure Agree (graph : DependencyGraph) (calls : CallGraph) : Prop where
  graphBuilt : graph.Built
  callsBuilt : calls.Built
  lines : ∀ caller callee, graph.callLine? caller callee = calls.callLine? caller callee

namespace Agree

variable {graph other : DependencyGraph} {calls more : CallGraph}

theorem empty : Agree {} {} := ⟨.empty, .empty, fun _ _ => rfl⟩

theorem addNode (agree : Agree graph calls) (node : Entity) : Agree (graph.addNode node) calls :=
  ⟨agree.graphBuilt.addNode node, agree.callsBuilt, agree.lines⟩

theorem addCallNode (agree : Agree graph calls) (name : String) (kind : EntityKind)
    (file : Option String) : Agree graph (calls.addNode name kind file) :=
  ⟨agree.graphBuilt, agree.callsBuilt.addNode name kind file, agree.lines⟩

/-- Links of other kinds are no concern of the call graph. -/
theorem addLink (agree : Agree graph calls) {link : Link} (noCall : link.kind ≠ .call) :
    Agree (graph.addLink link) calls := by
  refine ⟨agree.graphBuilt.addLink link, agree.callsBuilt, fun caller callee => ?_⟩
  have elsewhere : ⟨caller, callee, .call⟩ ≠ linkKey link.source link.target link.kind := by
    intro same
    exact noCall (congrArg (fun place : LinkKey => place.second.second) same).symm
  rw [DependencyGraph.callLine?_addLink, if_neg elsewhere, Option.merge_none_right, agree.lines]

theorem addLinks (agree : Agree graph calls) {links : List Link}
    (noCalls : ∀ link ∈ links, link.kind ≠ .call) :
    Agree (links.foldl DependencyGraph.addLink graph) calls :=
  List.foldlRecOn (motive := (Agree · calls)) _ _ agree fun _ agree link member =>
    agree.addLink (noCalls link member)

/-- A call is entered in both graphs. -/
theorem addCall (agree : Agree graph calls) (caller callee : String) (site : Site) :
    Agree (graph.addLink ⟨caller, callee, .call, site.second⟩)
      (calls.addCall caller callee site) := by
  refine ⟨agree.graphBuilt.addLink _, agree.callsBuilt.addCall _ _ _, fun source target => ?_⟩
  rw [DependencyGraph.callLine?_addLink, CallGraph.callLine?_addCall, agree.lines]
  simp [linkKey]

theorem merge (agree : Agree graph calls) (also : Agree other more) :
    Agree (graph.merge other) (calls.merge more) := by
  refine ⟨agree.graphBuilt.merge also.graphBuilt, agree.callsBuilt.merge also.callsBuilt, ?_⟩
  intro caller callee
  rw [DependencyGraph.callLine?_merge also.graphBuilt.placed,
    CallGraph.callLine?_merge also.callsBuilt.consistent, agree.lines, also.lines]

theorem called_iff (agree : Agree graph calls) (caller callee : String) :
    graph.Called caller callee ↔ calls.Calls caller callee := by
  rw [graph.called_iff_callLine?, agree.callsBuilt.consistent.calls_iff_callLine?, agree.lines]

theorem firstLine? (agree : Agree graph calls) {caller callee : String} {link : Link}
    {edge : CallEdge} (linked : graph.links.find? ⟨caller, callee, .call⟩ = some link)
    (called : calls.edges.find? ⟨caller, callee⟩ = some edge) :
    edge.firstLine? = some link.line := by
  have lines := agree.lines caller callee
  rw [DependencyGraph.callLine?, linked, CallGraph.callLine?, called] at lines
  exact lines.symm

/-- A cycle of calls shows among the circular references. -/
theorem circularReferences_ne_nil (agree : Agree graph calls) {cycle : List String}
    (isCycle : IsCycle calls.Calls cycle) : graph.circularReferences ≠ [] := by
  have same : graph.Called = calls.Calls := by
    funext caller callee
    exact propext (agree.called_iff caller callee)
  rw [← same] at isCycle
  obtain ⟨found, member, _⟩ :=
    DependencyGraph.exists_shared_call agree.graphBuilt.endsKnown isCycle
  rw [DependencyGraph.circularReferences, ne_eq, List.map_eq_nil_iff]
  exact List.ne_nil_of_mem member

end Agree

/-! The graphs of units, files and projects -/

variable {kindOf : String → Option EntityKind}

theorem heritage_kind {pou : Pou Mark} {link : Link} (member : link ∈ heritage pou) :
    link.kind ≠ .call := by
  unfold heritage at member
  split at member
  · rcases List.mem_append.mp member with based | implemented
    · obtain ⟨base, _, rfl⟩ := List.mem_map.mp based
      exact LinkKind.noConfusion
    · obtain ⟨interface, _, rfl⟩ := List.mem_map.mp implemented
      exact LinkKind.noConfusion
  · cases member

/-- A unit enters each of its calls as a link; its other links are of other kinds. -/
theorem contribution_links {pou : Pou Mark} {part : Contribution}
    (done : contribution kindOf pou = .ok part) :
    ∃ before after,
      part.links =
        before ++ part.calls.map (fun call => ⟨pou.name, call.1, .call, call.2⟩) ++ after ∧
      ∀ link ∈ before ++ after, link.kind ≠ .call := by
  -- the types of variables and the targets of calls may be at fault; the rest is read off
  obtain ⟨types, _, done⟩ := exists_ok_of_bind done
  obtain ⟨called, _, done⟩ := exists_ok_of_bind done
  cases done
  refine ⟨_, _, rfl, ?_⟩
  intro link member
  rcases List.mem_append.mp member with inside | referenced
  · rcases List.mem_append.mp inside with inherited | used
    · exact heritage_kind inherited
    · obtain ⟨use, _, rfl⟩ := List.mem_map.mp used
      exact LinkKind.noConfusion
  · obtain ⟨reference, _, rfl⟩ := List.mem_map.mp referenced
    exact LinkKind.noConfusion

/-- What a unit contributes is entered in both graphs. -/
theorem Agree.addContribution {graph : DependencyGraph} {calls : CallGraph}
    (agree : Agree graph calls) {pou : Pou Mark} {part : Contribution}
    (done : contribution kindOf pou = .ok part) (file : String) :
    Agree (part.links.foldl DependencyGraph.addLink graph) (part.calls.foldl
      (fun calls call => calls.addCall pou.name call.1 ⟨file, call.2⟩) calls) := by
  obtain ⟨before, after, links, others⟩ := contribution_links done
  rw [links, List.foldl_append, List.foldl_append, List.foldl_map]
  have start : Agree (before.foldl DependencyGraph.addLink graph) calls :=
    agree.addLinks fun link member => others link (List.mem_append_left after member)
  refine Agree.addLinks ?_ fun link member => others link (List.mem_append_right before member)
  exact List.foldl_rel start fun call _ _ _ agree => agree.addCall pou.name call.1 ⟨file, call.2⟩

theorem fragment_agree {tree : Tree} {part : DependencyGraph × CallGraph}
    (done : fragment kindOf tree = .ok part) : Agree part.1 part.2 := by
  obtain ⟨parts, made, done⟩ := exists_ok_of_bind done
  cases done
  -- links and calls are listed for all units first; regrouped, both folds go unit by unit
  simp only [List.foldl_flatMap, List.foldl_map]
  apply List.foldl_rel Agree.empty
  intro contributed member graph calls agree
  obtain ⟨pou, _, reached⟩ := exists_item_of_mapM made member
  obtain ⟨part, known, rfl⟩ := exists_ok_of_map reached
  exact agree.addContribution known tree.file

theorem declaredGraph_agree (trees : List Tree) :
    Agree (declaredGraph trees) (callableGraph (declaredGraph trees)) := by
  have declared : Agree (declaredGraph trees) {} :=
    List.foldlRecOn (motive := (Agree · {})) _ _ Agree.empty fun _ agree node _ =>
      agree.addNode node
  exact List.foldlRecOn _ _ declared fun _ agree node _ => agree.addCallNode _ _ _

/-- Cycles and depths are read off the finished graphs. -/
theorem analyze_findings {trees : List Tree} {cancelled : Bool} {result : Dependencies}
    (done : analyze trees cancelled = .ok result) :
    result.cycles = result.graph.circularReferences ∧ result.maxDepth = result.calls.maxDepth := by
  obtain ⟨fragments, made, done⟩ := exists_ok_of_bind done
  cases done
  exact ⟨rfl, rfl⟩

theorem analyze_agree {trees : List Tree} {cancelled : Bool} {result : Dependencies}
    (done : analyze trees cancelled = .ok result) : Agree result.graph result.calls := by
  obtain ⟨fragments, made, done⟩ := exists_ok_of_bind done
  cases done
  apply List.foldl_rel (declaredGraph_agree trees)
  intro part member graph calls agree
  obtain ⟨tree, _, built⟩ := exists_item_of_mapM made member
  exact agree.merge (fragment_agree built)

/-- Where a project can be analysed, its two graphs know the same calls, and the line of a call
among the dependencies is the first of its lines in the call graph. So where the depth of calls has
no limit, there is a circular reference. -/
theorem analyze_calls_agree {trees : List Tree} {cancelled : Bool} {result : Dependencies}
    (done : analyze trees cancelled = .ok result) :
    (∀ caller callee,
      result.graph.Called caller callee ↔ result.calls.Calls caller callee) ∧
    (∀ caller callee link edge,
      result.graph.links.find? ⟨caller, callee, .call⟩ = some link →
      result.calls.edges.find? ⟨caller, callee⟩ = some edge →
        (edge.sites.keys.map Pair.second).min? = some link.line) ∧
    ∀ cycle, result.maxDepth = .undefined cycle → result.cycles ≠ [] := by
  have agree := analyze_agree done
  refine ⟨agree.called_iff, fun _ _ _ _ linked called => agree.firstLine? linked called, ?_⟩
  intro cycle undefined
  rw [(analyze_findings done).2] at undefined
  rcases CallGraph.maxDepth_cases agree.callsBuilt.known with
    ⟨depth, bounded, _⟩ | ⟨members, _, isCycle⟩
  · rw [bounded] at undefined
    cases undefined
  · rw [(analyze_findings done).1]
    exact agree.circularReferences_ne_nil isCycle

/-- A file with one function that calls others, each at a line. -/
def callingFile (file caller : String) (calls : List (String × Nat)) : Tree :=
  let body := calls.zipIdx.map fun ((callee, line), index) =>
    Stmt.call (⟨index + 1, .line line⟩ : Mark) callee []
  let roots := [.pou { tag := ⟨0, .lines 1 20⟩, kind := .function "INT", name := caller, body }]
  { file, source := "", roots, errors := []
    index := (ParentIndex.build roots).toOption.getD .empty }

/-- Two functions that call each other; the first stands in two files. -/
def mutualFiles : List Tree :=
  [callingFile "ping.st" "Ping" [("pong", 7), ("PONG", 3)],
    callingFile "pong.st" "Pong" [("Ping", 4)],
    callingFile "older.st" "PING" [("Pong", 2)]]

theorem analyze_calls_agree_mutualFiles :
    ∃ result link edge, analyze mutualFiles false = .ok result ∧
      result.graph.links.find? ⟨"PING", "PONG", .call⟩ = some link ∧ link.line = 2 ∧
      result.calls.edges.find? ⟨"PING", "PONG"⟩ = some edge ∧
      (edge.sites.keys.map Pair.second).min? = some 2 ∧
      result.maxDepth = .undefined ["Ping", "Pong"] ∧ result.cycles ≠ [] := by
  obtain ⟨result, done⟩ : ∃ result, analyze mutualFiles false = .ok result := ⟨_, rfl⟩
  obtain ⟨same, lines, cycles⟩ := analyze_calls_agree done
  have depth : (analyze mutualFiles false).map Dependencies.maxDepth =
      .ok (.undefined ["Ping", "Pong"]) := by decide +kernel
  have line : (analyze mutualFiles false).map (·.graph.callLine? "PING" "PONG") =
      .ok (some 2) := by decide +kernel
  rw [done] at depth line
  have undefined := Except.ok.inj depth
  obtain ⟨link, linked, second⟩ := Option.map_eq_some_iff.mp (Except.ok.inj line)
  have called : result.graph.Called "PING" "PONG" := by
    rw [DependencyGraph.Called, Table.contains, linked]
    rfl
  obtain ⟨edge, found⟩ := Option.isSome_iff_exists.mp ((same "PING" "PONG").mp called)
  have least := lines _ _ link edge linked found
  rw [second] at least
  exact ⟨result, link, edge, done, linked, second, found, least, undefined, cycles _ undefined⟩

end PlcAudit.Graph
