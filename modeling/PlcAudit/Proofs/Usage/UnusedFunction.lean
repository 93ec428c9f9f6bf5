import PlcAudit.Proofs.Flow.CalledName
import PlcAudit.Proofs.Graph.Agreement

/-!
Functions that nobody calls, beside the call graph. Both analyses look at the same calls, but a
function can be reported as never called although the call graph has an edge to it. Such an edge
comes of calls that the pass over the units leaves out, or of calls of a variable whose type the two
analyses read differently.
-/

namespace PlcAudit.Flow

open Code

/-! Dead code in units -/

/-- The fact says that a unit is never called. -/
def Fact.isUncalled : Fact → Bool
  | .dead .unusedFunction .. => true
  | _ => false

/-- The pass over a unit finds dead code in it and says nothing about the unit itself. -/
theorem kept_inward : Kept fun _ fact => fact.isUncalled = false where
  read := fun _ _ _ _ _ => rfl
  write := fun _ _ _ => rfl
  call := fun _ _ _ => rfl
  statement := fun _ _ => rfl
  dead := fun kind _ _ _ inner => by
    cases kind with
    | unusedFunction => exact absurd rfl inner
    | _ => rfl
  around := fun _ inward => inward

theorem inward_declarations (pou : Pou Mark) :
    ∀ fact ∈ (declarations pou).facts, fact.isUncalled = false := by
  refine List.foldlRecOn (motive := fun declared : Declared =>
    ∀ fact ∈ declared.facts, fact.isUncalled = false) pou.decls _ (by simp) ?_
  intro declared known entry _
  exact List.forall_mem_append.mpr
    ⟨List.forall_mem_append.mpr ⟨known, kept_inward.observed⟩, List.forall_mem_singleton.mpr rfl⟩

/-- No unit is reported as uncalled by its own data flow. -/
theorem deadCode_inward (strict : Bool) (file : String) (pou : Pou Mark) :
    ∀ dead ∈ (pouFlow strict file pou).deadCode, dead.kind ≠ .unusedFunction := by
  have inward : ∀ fact ∈ pouFacts pou, fact.isUncalled = false :=
    List.forall_mem_append.mpr ⟨inward_declarations pou, kept_block kept_inward _ _ pou.body⟩
  rw [pouFlow_deadCode]
  intro dead member uncalled
  obtain ⟨fact, present, shown⟩ := List.mem_filterMap.mp member
  cases fact <;> cases shown
  cases uncalled
  exact absurd (inward _ present) (by simp [Fact.isUncalled])

end PlcAudit.Flow

namespace PlcAudit.Graph

open Code PlcAudit.Flow

/-! Where the edges of the call graph come from -/

/-- What a call of a unit goes to in the call graph: of a variable, what its type is about. -/
def callTarget (pou : Pou Mark) (name : String) : Except Fault String :=
  match lastType? pou.decls (key name) with
  | some type => referencedType type
  | none => .ok name

/-- A call in the tree of a unit goes to a name. -/
def Leads (pou : Pou Mark) (name : String) (line : Nat) (callee : String) : Prop :=
  .call name line ∈ pouAccesses pou ∧ ∃ target, callTarget pou name = .ok target ∧
    Text.sameName target callee = true

theorem find?_localTypes (pou : Pou Mark) (name : String) :
    (localTypes pou).find? (key name) = lastType? pou.decls (key name) := by
  rw [localTypes, Table.find?_ofList_last, ← List.map_reverse, List.find?_map, Option.map_map,
    lastType?]
  rfl

theorem mem_accesses_of_callsIn {nodes : List Node} {name : String} {line : Nat}
    (called : (name, line) ∈ callsIn nodes) : .call name line ∈ accessesOf nodes := by
  obtain ⟨node, member, found⟩ := List.mem_filterMap.mp called
  refine List.mem_flatMap.mpr ⟨node, member, ?_⟩
  split at found
  · cases found
    exact List.mem_singleton_self _
  · cases found
    exact List.mem_singleton_self _
  · cases found

/-- Every call that a unit contributes stands in its tree. -/
theorem exists_call_of_contribution {kindOf : String → Option EntityKind} {pou : Pou Mark}
    {part : Contribution} (done : contribution kindOf pou = .ok part) {call : String × Nat}
    (contributed : call ∈ part.calls) {callee : String} (same : key call.1 = key callee) :
    ∃ name, Leads pou name call.2 callee := by
  obtain ⟨types, _, done⟩ := exists_ok_of_bind done
  obtain ⟨called, resolved, done⟩ := exists_ok_of_bind done
  cases done
  obtain ⟨⟨name, line⟩, written, found⟩ :=
    exists_item_of_mapM resolved (List.mem_filter.mp contributed).1
  have target : callTarget pou name = .ok call.1 ∧ line = call.2 := by
    cases declared : lastType? pou.decls (key name) with
    | none =>
      simp only [find?_localTypes, declared] at found
      cases found
      exact ⟨by rw [callTarget, declared], rfl⟩
    | some type =>
      simp only [find?_localTypes, declared] at found
      obtain ⟨about, known, rfl⟩ := exists_ok_of_map found
      exact ⟨by rw [callTarget, declared]; exact known, rfl⟩
  obtain ⟨target, rfl⟩ := target
  exact ⟨name, mem_accesses_of_callsIn written, call.1, target, beq_iff_eq.mpr same⟩

namespace CallGraph

theorem calls_addCall_iff (graph : CallGraph) (source target : String) (site : Site)
    (caller callee : String) :
    (graph.addCall source target site).Calls caller callee ↔
      graph.Calls caller callee ∨ key source = caller ∧ key target = callee := by
  rw [Calls, Table.contains, find?_edges_addCall, Calls, Table.contains]
  by_cases same : (⟨caller, callee⟩ : Pair String String) = ⟨key source, key target⟩
  · cases same
    cases graph.edges.find? ⟨key source, key target⟩ <;> simp
  · have other : ¬(key source = caller ∧ key target = callee) := by
      rintro ⟨rfl, rfl⟩
      exact same rfl
    simp [same, other]

theorem calls_merge_iff {graph other : CallGraph} (consistent : other.Consistent)
    (caller callee : String) :
    (graph.merge other).Calls caller callee ↔
      graph.Calls caller callee ∨ other.Calls caller callee := by
  rw [Calls, Table.contains, find?_edges_merge consistent, Calls, Table.contains, Calls,
    Table.contains]
  cases graph.edges.find? ⟨caller, callee⟩ <;> cases other.edges.find? ⟨caller, callee⟩ <;> simp

end CallGraph

/-- An edge of a file's graph comes of a call in one of its units. -/
theorem exists_call_of_fragment {kindOf : String → Option EntityKind} {tree : Tree}
    {part : DependencyGraph × CallGraph} (done : fragment kindOf tree = .ok part)
    {caller callee : String} (called : part.2.Calls caller (key callee)) :
    ∃ pou ∈ tree.pous, key pou.name = caller ∧ ∃ name line, Leads pou name line callee := by
  obtain ⟨parts, made, done⟩ := exists_ok_of_bind done
  cases done
  -- The calls are added one by one, so the edge was added by one of them.
  refine List.foldlRecOn (motive := fun graph : CallGraph => graph.Calls caller (key callee) →
    ∃ pou ∈ tree.pous, key pou.name = caller ∧ ∃ name line, Leads pou name line callee)
    _ _ ?_ ?_ called
  · intro present
    cases present
  · intro graph known call member present
    rcases (graph.calls_addCall_iff ..).mp present with before | ⟨source, target⟩
    · exact known before
    · obtain ⟨⟨pou, contributed⟩, listed, inside⟩ := List.mem_flatMap.mp member
      obtain ⟨entry, entered, rfl⟩ := List.mem_map.mp inside
      obtain ⟨unit, inTree, reached⟩ := exists_item_of_mapM made listed
      obtain ⟨_, contribution, same⟩ := exists_ok_of_map reached
      cases same
      obtain ⟨name, leads⟩ := exists_call_of_contribution contribution entered target
      exact ⟨pou, inTree, source, name, entry.2, leads⟩

/-- An edge of a project's call graph comes of a call in one of its units. -/
theorem exists_call_of_edge {trees : List Tree} {result : Dependencies}
    (done : analyze trees false = .ok result) {caller callee : String}
    (called : result.calls.Calls caller (key callee)) :
    ∃ tree ∈ trees, ∃ pou ∈ tree.pous, key pou.name = caller ∧
      ∃ name line, Leads pou name line callee := by
  obtain ⟨fragments, made, done⟩ := exists_ok_of_bind done
  cases done
  have bare : ¬(callableGraph (declaredGraph trees)).Calls caller (key callee) := by
    refine List.foldlRecOn (motive := fun graph : CallGraph => ¬graph.Calls caller (key callee))
      _ _ ?_ fun _ absent _ _ => absent
    intro present
    cases present
  refine List.foldlRecOn (motive := fun graph : CallGraph => graph.Calls caller (key callee) →
    ∃ tree ∈ trees, ∃ pou ∈ tree.pous, key pou.name = caller ∧
      ∃ name line, Leads pou name line callee) _ _ (fun present => absurd present bare) ?_ called
  intro graph known part member present
  obtain ⟨tree, inTrees, built⟩ := exists_item_of_mapM made member
  have consistent := (fragment_agree built).callsBuilt.consistent
  rcases (CallGraph.calls_merge_iff consistent ..).mp present with before | added
  · exact known before
  · obtain ⟨pou, inTree, source, leads⟩ := exists_call_of_fragment built added
    exact ⟨tree, inTrees, pou, inTree, source, leads⟩

end PlcAudit.Graph

namespace PlcAudit.Usage

open Code PlcAudit.Flow PlcAudit.Graph

/-! Reported functions -/

/-- The data flow of every unit is looked at, and nothing else. -/
theorem analyze_flows {options : Options} {project : String} {trees : List Tree}
    {analysis : Analysis} (done : analyze options project trees false = .ok analysis) :
    ∃ flows, analysis = summarize options project trees flows trees.length ∧
      (∀ flow ∈ flows, ∃ tree ∈ trees, ∃ pou ∈ tree.pous,
        flow = pouFlow options.strict tree.file pou) ∧
      ∀ tree ∈ trees, ∀ pou ∈ tree.pous, pouFlow options.strict tree.file pou ∈ flows := by
  obtain ⟨lists, made, done⟩ := exists_ok_of_bind done
  cases done
  refine ⟨lists.flatten, rfl, ?_, ?_⟩
  · intro flow member
    obtain ⟨list, listed, inside⟩ := List.mem_flatten.mp member
    obtain ⟨tree, inTrees, analyzed⟩ := exists_item_of_mapM made listed
    obtain ⟨pou, inTree, found⟩ := exists_item_of_mapM analyzed inside
    exact ⟨tree, inTrees, pou, inTree, analyzePou_eq_ok found⟩
  · intro tree inTrees pou inTree
    obtain ⟨list, listed, analyzed⟩ := exists_result_of_mapM made inTrees
    obtain ⟨flow, inside, found⟩ := exists_result_of_mapM analyzed inTree
    rw [← analyzePou_eq_ok found]
    exact List.mem_flatten_of_mem listed inside

/-- A function is reported only if no recorded call goes by its name. -/
theorem uncalled_of_mem {trees : List Tree} {flows : List PouFlow} {entryPoints : List String}
    {dead : DeadCode} (reported : dead ∈ unusedFunctions trees flows entryPoints) :
    Text.upper dead.pouName ∉ calledNames flows entryPoints := by
  obtain ⟨place, found⟩ := (Table.mem_values_iff ..).mp reported
  rw [Table.find?_ofList_last] at found
  obtain ⟨entry, last, rfl⟩ := Option.map_eq_some_iff.mp found
  have listed := List.mem_reverse.mp (List.mem_of_find?_eq_some last)
  obtain ⟨tree, _, inside⟩ := List.mem_flatMap.mp listed
  obtain ⟨pou, kept, rfl⟩ := List.mem_map.mp inside
  have uncalled := (List.mem_filter.mp kept).2
  simpa [unusedFunction] using (Bool.and_eq_true_iff.mp uncalled).2

/-- No call that the pass meets goes by the name of a reported function. -/
theorem reported_unmet {options : Options} {project : String} {trees : List Tree}
    {analysis : Analysis} (done : analyze options project trees false = .ok analysis)
    {dead : DeadCode} (reported : dead ∈ analysis.deadCode) (kind : dead.kind = .unusedFunction)
    {tree : Tree} (inTrees : tree ∈ trees) {pou : Pou Mark} (inTree : pou ∈ tree.pous)
    {above : Decls} {name : String} {line : Nat} (meets : Meets pou above name line) :
    Text.upper (calleeAmong above name) ≠ Text.upper dead.pouName := by
  obtain ⟨flows, rfl, made, complete⟩ := analyze_flows done
  have listed : dead ∈ unusedFunctions trees flows options.entryPoints := by
    rcases List.mem_append.mp reported with inner | outer
    · obtain ⟨flow, member, inside⟩ := List.mem_flatMap.mp inner
      obtain ⟨_, _, unit, _, rfl⟩ := made flow member
      exact absurd kind (deadCode_inward _ _ _ dead inside)
    · split at outer
      · exact outer
      · cases outer
  intro same
  apply uncalled_of_mem listed
  rw [← same]
  obtain ⟨site, recorded, callee⟩ := List.mem_map.mp (meets.recorded options.strict tree.file)
  refine List.mem_append_left _ (List.mem_flatMap.mpr ⟨_, complete tree inTrees pou inTree, ?_⟩)
  exact List.mem_map.mpr ⟨site, recorded, by rw [callee]⟩

/-! Reported functions in the call graph -/

/-- A name that the unit does not declare means the same to both analyses. -/
theorem calleeAmong_eq_of_undeclared {decls above : Decls} (inside : above ⊆ decls) {name : String}
    (undeclared : lastType? decls (Text.upper name) = none) : calleeAmong above name = name := by
  have absent : lastType? above (Text.upper name) = none :=
    lastType?_eq_none_iff.mpr fun entry member =>
      lastType?_eq_none_iff.mp undeclared entry (inside member)
  rw [calleeAmong, absent]
  rfl

/-- Where the call graph has an edge to a function that is reported as never called, the edge comes
of calls in the units. Each such call is one that the pass over its unit leaves out, or a call of a
variable whose type, as the pass knows it there, is not written as the name of the function. -/
theorem unusedFunction_edges {options : Options} {project : String} {trees : List Tree}
    {analysis : Analysis} {dependencies : Dependencies}
    (analyzed : analyze options project trees false = .ok analysis)
    (linked : Graph.analyze trees false = .ok dependencies) {dead : DeadCode}
    (reported : dead ∈ analysis.deadCode) (kind : dead.kind = .unusedFunction) :
    (∀ caller, dependencies.calls.Calls caller (key dead.pouName) →
      ∃ tree ∈ trees, ∃ pou ∈ tree.pous, key pou.name = caller ∧
        ∃ name line, Leads pou name line dead.pouName) ∧
    ∀ tree ∈ trees, ∀ pou ∈ tree.pous, ∀ name line, Leads pou name line dead.pouName →
      .call name line ∈ pouOmits pou ∨
      ∃ above, Meets pou above name line ∧
        Text.sameName (calleeAmong above name) dead.pouName = false ∧
        ∃ entry ∈ pou.decls, Text.sameName entry.2.name name = true := by
  refine ⟨fun caller called => exists_call_of_edge linked called, ?_⟩
  intro tree inTrees pou inTree name line leads
  obtain ⟨present, target, resolved, same⟩ := leads
  rcases meets_of_mem present with omitted | ⟨above, meets⟩
  · exact .inl omitted
  · have unlike := reported_unmet analyzed reported kind inTrees inTree meets
    refine .inr ⟨above, meets, beq_false_of_ne unlike, ?_⟩
    by_contra undeclared
    have unknown : lastType? pou.decls (Text.upper name) = none :=
      lastType?_eq_none_iff.mpr fun entry member match_ =>
        undeclared ⟨entry, member, beq_iff_eq.mpr match_⟩
    have plain : target = name := by
      rw [callTarget, show key name = Text.upper name from rfl, unknown] at resolved
      exact (Except.ok.inj resolved).symm
    rw [calleeAmong_eq_of_undeclared meets.subset unknown, ← plain] at unlike
    exact unlike (beq_iff_eq.mp same)

/-- A function, and a program that calls it in a condition of ELSIF behind TRUE. -/
def maskedCall : List Tree :=
  let tree := fun (file : String) (pou : Pou Mark) =>
    ({ file, source := "", roots := [.pou pou], errors := []
       index := (ParentIndex.build [.pou pou]).toOption.getD .empty } : Tree)
  [tree "scale.st" {
      tag := ⟨0, .lines 1 2⟩, kind := .function "BOOL", name := "Scale", body := [] },
    tree "main.st" {
      tag := ⟨0, .lines 1 5⟩, kind := .program, name := "Main"
      body := [.cond ⟨1, .line 2⟩ (.literal ⟨2, .line 2⟩ .boolean "TRUE") []
        [.mk (.line 3) (.call ⟨3, .line 3⟩ "Scale" []) []] none] }]

/-- What is said about the function. -/
def uncalledScale : DeadCode where
  kind := .unusedFunction
  file := "scale.st"
  pouName := "Scale"
  startLine := 1
  endLine := 2
  description := "FUNCTION Scale is never called"

theorem unusedFunction_edges_maskedCall : ∃ analysis dependencies,
    analyze {} "plant" maskedCall false = .ok analysis ∧
      Graph.analyze maskedCall false = .ok dependencies ∧
      uncalledScale ∈ analysis.deadCode ∧ dependencies.calls.Calls "MAIN" "SCALE" ∧
      ∃ tree ∈ maskedCall, ∃ pou ∈ tree.pous, key pou.name = "MAIN" ∧
        ∃ name line, Leads pou name line "Scale" ∧ .call name line ∈ pouOmits pou := by
  obtain ⟨analysis, analyzed⟩ : ∃ analysis, analyze {} "plant" maskedCall false = .ok analysis :=
    ⟨_, rfl⟩
  obtain ⟨dependencies, linked⟩ : ∃ dependencies,
      Graph.analyze maskedCall false = .ok dependencies := ⟨_, rfl⟩
  have listed : (analyze {} "plant" maskedCall false).map
      (decide <| uncalledScale ∈ ·.deadCode) = .ok true := by decide +kernel
  have drawn : (Graph.analyze maskedCall false).map
      (decide <| ·.calls.Calls "MAIN" "SCALE") = .ok true := by decide +kernel
  rw [analyzed] at listed
  rw [linked] at drawn
  have reported := of_decide_eq_true (Except.ok.inj listed)
  have called := of_decide_eq_true (Except.ok.inj drawn)
  obtain ⟨edges, calls⟩ := unusedFunction_edges analyzed linked reported rfl
  obtain ⟨tree, inTrees, pou, inTree, caller, name, line, leads⟩ := edges "MAIN" called
  refine ⟨analysis, dependencies, analyzed, linked, reported, called,
    tree, inTrees, pou, inTree, caller, name, line, leads, ?_⟩
  -- No unit of these files declares a variable.
  have bare : ∀ tree ∈ maskedCall, ∀ pou ∈ tree.pous, pou.decls = [] := by decide
  rcases calls tree inTrees pou inTree name line leads with omitted | ⟨_, _, _, entry, declared, _⟩
  · exact omitted
  · rw [bare tree inTrees pou inTree] at declared
    cases declared

/-- The function is reported as never called, and the call graph knows who calls it. -/
theorem maskedCall_contradicts : ∃ analysis dependencies,
    analyze {} "plant" maskedCall false = .ok analysis ∧
      Graph.analyze maskedCall false = .ok dependencies ∧
      ((maskedCall.flatMap Tree.pous).map (key ·.name)).Nodup ∧
      (∃ dead ∈ analysis.deadCode, dead.kind = .unusedFunction ∧ dead.pouName = "Scale") ∧
      dependencies.calls.Calls (key "Main") (key "Scale") := by
  refine ⟨_, _, rfl, rfl, ?_, ?_, ?_⟩
  · decide
  · exact ⟨uncalledScale, by decide +kernel, rfl, rfl⟩
  · decide +kernel

end PlcAudit.Usage
