import PlcAudit.Proofs.Graph.Call
import PlcAudit.Proofs.Graph.Dependency

/-!
Recursion, as far as the search for cycles shows it. The search meets one cycle for each step that
leads back to its path, so it shows some cycle of every group of units that call each other, but
neither all members of the group nor a cycle of calls alone.
-/

namespace PlcAudit.Graph

open Relation CycleSearch

/-- Two cycles have a step in common. -/
def ShareStep (first second : List String) : Prop :=
  ∃ step ∈ cycleSteps first, step ∈ cycleSteps second

/-- Every cycle has a step in common with a cycle that is met. -/
theorem Adjacency.exists_shareStep {graph : Adjacency} (closed : graph.Closed)
    {cycle : List String} (isCycle : IsCycle graph.Edge cycle) :
    ∃ found ∈ graph.cycles, ShareStep cycle found := by
  obtain ⟨step, inside, found, member, shared⟩ := exists_met_step closed isCycle
  exact ⟨found, member, step, inside, shared⟩

namespace CallGraph

variable {graph : CallGraph}

theorem mem_recursiveKeys (graph : CallGraph) (node : String) :
    node ∈ graph.recursiveKeys ↔ ∃ cycle ∈ graph.adjacency.cycles, node ∈ cycle := by
  change node ∈ (List.mergeSort _ _).eraseDups ↔ _
  rw [List.mem_eraseDups, List.mem_mergeSort, List.mem_flatten]

theorem subset_recursiveKeys {cycle : List String} (found : cycle ∈ graph.adjacency.cycles) :
    cycle ⊆ graph.recursiveKeys :=
  fun node member => (mem_recursiveKeys graph node).mpr ⟨cycle, found, member⟩

/-- Of every cycle of calls the two ends of some call are listed. -/
theorem exists_listed_step (known : graph.Known) {cycle : List String}
    (isCycle : IsCycle graph.Calls cycle) :
    ∃ step ∈ cycleSteps cycle, step.1 ∈ graph.recursiveKeys ∧ step.2 ∈ graph.recursiveKeys := by
  rw [← edge_adjacency] at isCycle
  obtain ⟨found, member, step, inside, shared⟩ := Adjacency.exists_shareStep known.closed isCycle
  have ends := mem_of_mem_cycleSteps shared
  exact ⟨step, inside, subset_recursiveKeys member ends.1, subset_recursiveKeys member ends.2⟩

theorem listed_of_common (known : graph.Known) {cycle : List String} {node : String}
    (isCycle : IsCycle graph.Calls cycle)
    (common : ∀ other, IsCycle graph.Calls other → ShareStep cycle other → node ∈ other) :
    node ∈ graph.recursiveKeys := by
  rw [← edge_adjacency] at isCycle common
  obtain ⟨found, member, shares⟩ := Adjacency.exists_shareStep known.closed isCycle
  have isFound := (Adjacency.mem_cycles known.closed member).1
  exact subset_recursiveKeys member (common found isFound shares)

/-- Units that call each other are listed, and so is one that calls itself. -/
theorem listed_of_calls_back (known : graph.Known) {caller callee : String}
    (there : graph.Calls caller callee) (back : graph.Calls callee caller) :
    caller ∈ graph.recursiveKeys := by
  by_cases same : caller = callee
  · subst callee
    have isCycle : IsCycle graph.Calls [caller] := ⟨by simp, by simp, by simpa using there⟩
    obtain ⟨step, inside, listed, _⟩ := exists_listed_step known isCycle
    obtain rfl : step = (caller, caller) := by simpa [cycleSteps] using inside
    exact listed
  · have isCycle : IsCycle graph.Calls [caller, callee] :=
      ⟨by simp, by simpa using same, by simp [there, back]⟩
    obtain ⟨step, inside, listed⟩ := exists_listed_step known isCycle
    have ends : step = (caller, callee) ∨ step = (callee, caller) := by
      simpa [cycleSteps] using inside
    rcases ends with rfl | rfl
    · exact listed.1
    · exact listed.2

/-- Units that are listed as recursive are so. Of every cycle of calls the two ends of some call are
listed, and a unit is listed whenever all cycles that share a call with the cycle go through it. In
particular, units that call themselves or each other are listed. -/
theorem recursiveKeys_cycles (built : graph.Built) :
    (∀ node ∈ graph.recursiveKeys, TransGen graph.Calls node node) ∧
    (∀ cycle, IsCycle graph.Calls cycle →
      (∃ step ∈ cycleSteps cycle,
        step.1 ∈ graph.recursiveKeys ∧ step.2 ∈ graph.recursiveKeys) ∧
      ∀ node, (∀ other, IsCycle graph.Calls other → ShareStep cycle other → node ∈ other) →
        node ∈ graph.recursiveKeys) ∧
    ∀ caller callee, graph.Calls caller callee → graph.Calls callee caller →
      caller ∈ graph.recursiveKeys ∧ callee ∈ graph.recursiveKeys := by
  have known := built.known
  refine ⟨fun node member => ?_, fun cycle isCycle => ⟨exists_listed_step known isCycle, ?_⟩, ?_⟩
  · obtain ⟨cycle, found, inside⟩ := (mem_recursiveKeys graph node).mp member
    rw [← edge_adjacency]
    exact (Adjacency.mem_cycles known.closed found).1.transGen inside
  · exact fun node common => listed_of_common known isCycle common
  · intro caller callee there back
    exact ⟨listed_of_calls_back known there back, listed_of_calls_back known back there⟩

/-- Two units that call each other. -/
def mutualCalls : CallGraph :=
  (CallGraph.addCall {} "ping" "pong" ⟨"ping.st", 3⟩).addCall "pong" "ping" ⟨"pong.st", 4⟩

theorem recursiveKeys_cycles_mutualCalls :
    mutualCalls.Calls "PING" "PONG" ∧ mutualCalls.Calls "PONG" "PING" ∧
      "PING" ∈ mutualCalls.recursiveKeys ∧ "PONG" ∈ mutualCalls.recursiveKeys := by
  have built : mutualCalls.Built := (Built.empty.addCall ..).addCall ..
  have there : mutualCalls.Calls "PING" "PONG" := by decide
  have back : mutualCalls.Calls "PONG" "PING" := by decide
  exact ⟨there, back, (recursiveKeys_cycles built).2.2 _ _ there back⟩

/-- Two units that call each other, where the first also calls the second through a third. -/
def detour : CallGraph :=
  (((CallGraph.addCall {} "a" "b" ⟨"f.st", 1⟩).addCall "a" "c" ⟨"f.st", 2⟩).addCall
    "b" "a" ⟨"f.st", 3⟩).addCall "c" "b" ⟨"f.st", 4⟩

/-- The unit on the detour calls itself through the others, and is not listed. -/
theorem detour_unlisted :
    detour.Built ∧ TransGen detour.Calls "C" "C" ∧ "C" ∉ detour.recursiveKeys := by
  refine ⟨(((Built.empty.addCall ..).addCall ..).addCall ..).addCall .., ?_, ?_⟩
  · have first : detour.Calls "C" "B" := by decide
    have second : detour.Calls "B" "A" := by decide
    have third : detour.Calls "A" "C" := by decide
    exact ((TransGen.single first).tail second).tail third
  · have found : detour.adjacency.cycles = [["A", "B"]] := by decide
    simp [mem_recursiveKeys, found]

end CallGraph

namespace DependencyGraph

variable {graph : DependencyGraph}

/-- A link of a call leads from one node to the other. -/
def Called (graph : DependencyGraph) (source target : String) : Prop :=
  graph.links.contains ⟨source, target, .call⟩ = true

instance (graph : DependencyGraph) (source target : String) :
    Decidable (graph.Called source target) :=
  inferInstanceAs (Decidable (_ = true))

theorem Called.linked {source target : String} (called : graph.Called source target) :
    graph.Linked source target :=
  ⟨.call, called⟩

theorem critical_iff (graph : DependencyGraph) (cycle : List String) :
    (graph.circularReference cycle).severity = .critical ↔
      ∀ step ∈ cycleSteps cycle, graph.Called step.1 step.2 := by
  simp only [circularReference, Called]
  split
  · rename_i calls
    simpa using calls
  · rename_i mixed
    simpa using mixed

/-- A circular reference is there for every cycle that is met. -/
theorem mem_circularReferences (graph : DependencyGraph) (reference : CircularReference) :
    reference ∈ graph.circularReferences ↔
      ∃ cycle ∈ graph.adjacency.cycles, graph.circularReference cycle = reference :=
  List.mem_map

/-- Every cycle of calls has a call in common with a cycle that is met. -/
theorem exists_shared_call (known : graph.EndsKnown) {cycle : List String}
    (isCycle : IsCycle graph.Called cycle) :
    ∃ found ∈ graph.adjacency.cycles, IsCycle graph.Linked found ∧ ShareStep cycle found := by
  have linked : IsCycle graph.adjacency.Edge cycle := by
    rw [edge_adjacency]
    exact isCycle.of_steps fun step member => (isCycle.edge_of_step member).linked
  obtain ⟨found, member, shares⟩ := Adjacency.exists_shareStep known.closed linked
  have isFound := (Adjacency.mem_cycles known.closed member).1
  rw [edge_adjacency] at isFound
  exact ⟨found, member, isFound, shares⟩

theorem exists_critical {cycle : List String} (found : cycle ∈ graph.adjacency.cycles)
    (isCycle : IsCycle graph.Called cycle) :
    ∃ reference ∈ graph.circularReferences, reference.severity = .critical := by
  refine ⟨_, (mem_circularReferences ..).mpr ⟨cycle, found, rfl⟩, ?_⟩
  exact (critical_iff graph cycle).mpr fun step inside => isCycle.edge_of_step inside

theorem exists_critical_of_selfCall (known : graph.EndsKnown) {node : String}
    (called : graph.Called node node) :
    ∃ reference ∈ graph.circularReferences, reference.severity = .critical := by
  have alone : IsCycle graph.Called [node] := ⟨by simp, by simp, by simpa using called⟩
  obtain ⟨found, member, isCycle, step, inside, shared⟩ := exists_shared_call known alone
  obtain rfl : step = (node, node) := by simpa [cycleSteps] using inside
  rw [eq_singleton_of_self_step isCycle.distinct shared] at member
  exact exists_critical member alone

/-- A critical reference shows a cycle of calls. Every cycle of calls has a call in common with a
cycle that is shown, and there is a critical reference if no cycle that has a call in common with it
leads over links of another kind, or if a unit calls itself. -/
theorem criticalReference_cycles (built : graph.Built) :
    (∀ reference ∈ graph.circularReferences, reference.severity = .critical →
      ∃ cycle, IsCycle graph.Called cycle ∧ graph.circularReference cycle = reference) ∧
    (∀ cycle, IsCycle graph.Called cycle →
      (∃ found, graph.circularReference found ∈ graph.circularReferences ∧
        IsCycle graph.Linked found ∧ ShareStep cycle found) ∧
      ((∀ other, IsCycle graph.Linked other → ShareStep cycle other → IsCycle graph.Called other) →
        ∃ reference ∈ graph.circularReferences, reference.severity = .critical)) ∧
    ∀ node, graph.Called node node →
      ∃ reference ∈ graph.circularReferences, reference.severity = .critical := by
  have known := built.endsKnown
  refine ⟨?_, fun cycle isCycle => ?_, fun node called => exists_critical_of_selfCall known called⟩
  · intro reference member isCritical
    obtain ⟨cycle, found, rfl⟩ := (mem_circularReferences ..).mp member
    have isCycle := (Adjacency.mem_cycles known.closed found).1
    exact ⟨cycle, isCycle.of_steps ((critical_iff graph cycle).mp isCritical), rfl⟩
  · obtain ⟨found, member, isFound, shares⟩ := exists_shared_call known isCycle
    refine ⟨⟨found, (mem_circularReferences ..).mpr ⟨found, member, rfl⟩, isFound, shares⟩, ?_⟩
    exact fun pure => exists_critical member (pure found isFound shares)

theorem criticalReference_cycles_selfCall :
    ∃ reference ∈ (DependencyGraph.addLink {} ⟨"f", "F", .call, 2⟩).circularReferences,
      reference.severity = .critical := by
  have built := Built.empty.addLink ⟨"f", "F", .call, 2⟩
  exact (criticalReference_cycles built).2.2 "F" (by decide)

/-- Two units that call each other, where the first also uses the type of a third that calls the
second. -/
def typedDetour : DependencyGraph :=
  (((DependencyGraph.addLink {} ⟨"a", "b", .typeUse, 1⟩).addLink ⟨"a", "c", .call, 2⟩).addLink
    ⟨"b", "c", .call, 3⟩).addLink ⟨"c", "a", .call, 4⟩

/-- The units call each other, and there is a warning about the detour only. -/
theorem typedDetour_uncritical :
    typedDetour.Built ∧ IsCycle typedDetour.Called ["A", "C"] ∧
      ∀ reference ∈ typedDetour.circularReferences, reference.severity ≠ .critical := by
  refine ⟨(((Built.empty.addLink _).addLink _).addLink _).addLink _, ?_, ?_⟩
  · have there : typedDetour.Called "A" "C" := by decide
    have back : typedDetour.Called "C" "A" := by decide
    exact ⟨by simp, by decide, by simp [there, back]⟩
  · decide

end DependencyGraph

end PlcAudit.Graph
