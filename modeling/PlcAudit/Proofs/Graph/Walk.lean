import Mathlib.Data.List.Chain
import Mathlib.Logic.Relation
import PlcAudit.Graph.Search

/-!
Walks and simple cycles of a directed graph. Cycles are lists that can be read from any of their
members, and a search path that is entered again closes one.
-/

namespace PlcAudit.Graph

open Relation

variable {edge : String → String → Prop}

/-- A simple cycle: every member leads to the next one, and the last leads back to the first. -/
structure IsCycle (edge : String → String → Prop) (cycle : List String) : Prop where
  nonempty : cycle ≠ []
  distinct : cycle.Nodup
  steps : (cycle ++ cycle.take 1).IsChain edge

/-- Some cycle can be reached from a node. -/
def ReachesCycle (edge : String → String → Prop) (node : String) : Prop :=
  ∃ member, ReflTransGen edge node member ∧ TransGen edge member member

/-- A walk by its ends and its number of edges. -/
inductive Walk (edge : String → String → Prop) : String → String → Nat → Prop where
  | here : Walk edge node node 0
  | next (first : edge source middle) (rest : Walk edge middle target length) :
      Walk edge source target (length + 1)

/-- The number of edges of a longest walk from a node. -/
structure IsLongest (edge : String → String → Prop) (node : String) (length : Nat) : Prop where
  attained : ∃ target, Walk edge node target length
  bound : ∀ target other, Walk edge node target other → other ≤ length

theorem Walk.append {source middle target : String} {first second : Nat}
    (front : Walk edge source middle first) (back : Walk edge middle target second) :
    Walk edge source target (first + second) := by
  induction front with
  | here => simpa using back
  | next step _ ih => simpa [Nat.add_right_comm] using Walk.next step (ih back)

theorem walk_of_reflTransGen {source target : String} (reached : ReflTransGen edge source target) :
    ∃ length, Walk edge source target length := by
  induction reached with
  | refl => exact ⟨0, .here⟩
  | tail _ step ih =>
    obtain ⟨length, walk⟩ := ih
    exact ⟨_, walk.append (.next step .here)⟩

theorem walk_of_transGen {source target : String} (reached : TransGen edge source target) :
    ∃ length, Walk edge source target (length + 1) := by
  obtain ⟨middle, step, rest⟩ := TransGen.head'_iff.mp reached
  obtain ⟨length, walk⟩ := walk_of_reflTransGen rest
  exact ⟨length, .next step walk⟩

/-- A cycle can be walked around any number of times. -/
theorem walk_around {node : String} (around : TransGen edge node node) (times : Nat) :
    ∃ length, times ≤ length ∧ Walk edge node node length := by
  induction times with
  | zero => exact ⟨0, Nat.le_refl _, .here⟩
  | succ times ih =>
    obtain ⟨length, enough, walk⟩ := ih
    obtain ⟨more, turn⟩ := walk_of_transGen around
    exact ⟨_, by omega, walk.append turn⟩

/-- Where a longest walk exists, no cycle can be reached. -/
theorem IsLongest.no_cycle {node : String} {length : Nat} (longest : IsLongest edge node length) :
    ¬ ReachesCycle edge node := by
  rintro ⟨member, reached, around⟩
  obtain ⟨front, walk⟩ := walk_of_reflTransGen reached
  obtain ⟨turns, enough, cycle⟩ := walk_around around (length + 1)
  have short := longest.bound _ _ (walk.append cycle)
  omega

theorem IsLongest.unique {node : String} {first second : Nat} (one : IsLongest edge node first)
    (other : IsLongest edge node second) : first = second := by
  obtain ⟨_, walk⟩ := one.attained
  obtain ⟨_, again⟩ := other.attained
  exact Nat.le_antisymm (other.bound _ _ walk) (one.bound _ _ again)

/-! Cycles -/

theorem transGen_of_chain {source target : String} {between : List String}
    (chain : (source :: between ++ [target]).IsChain edge) : TransGen edge source target := by
  induction between generalizing source with
  | nil =>
    obtain ⟨step, _⟩ := List.isChain_cons_cons.mp chain
    exact .single step
  | cons middle rest ih =>
    obtain ⟨step, tail⟩ := List.isChain_cons_cons.mp chain
    exact .head step (ih tail)

/-- A cycle can be read from any member. -/
theorem IsCycle.rotate {front back : List String} (cycle : IsCycle edge (front ++ back)) :
    IsCycle edge (back ++ front) := by
  cases front with
  | nil => simpa using cycle
  | cons first front =>
    cases back with
    | nil => simpa using cycle
    | cons second back =>
      have steps : (first :: front ++ second :: (back ++ [first])).IsChain edge := by
        simpa using cycle.steps
      obtain ⟨one, two⟩ := List.isChain_split.mp steps
      refine ⟨by simp, List.perm_append_comm.nodup_iff.mp cycle.distinct, ?_⟩
      have turned : (second :: back ++ first :: (front ++ [second])).IsChain edge :=
        List.isChain_split.mpr ⟨by simpa using two, by simpa using one⟩
      simpa using turned

theorem IsCycle.transGen {cycle : List String} {member : String} (isCycle : IsCycle edge cycle)
    (present : member ∈ cycle) : TransGen edge member member := by
  obtain ⟨front, back, rfl⟩ := List.append_of_mem present
  have steps : (member :: (back ++ front) ++ [member]).IsChain edge := by
    simpa using isCycle.rotate.steps
  exact transGen_of_chain steps

/-- An edge from the latest node of a search path to one on the path closes a cycle. -/
theorem isCycle_cycleTo {path : List String} {child : String} (distinct : path.Nodup)
    (chain : (child :: path).IsChain fun later earlier => edge earlier later)
    (present : child ∈ path) : IsCycle edge (cycleTo child path) := by
  obtain ⟨newer, older, rfl⟩ := List.append_of_mem present
  have apart : child ∉ newer := fun again =>
    (List.nodup_append.mp distinct).2.2 child again child (List.mem_cons_self ..) rfl
  have taken : (newer ++ child :: older).takeWhile (· ≠ child) = newer := by
    rw [List.takeWhile_append_of_pos fun node member => by
      simpa using fun same : node = child => apart (same ▸ member)]
    simp
  rw [cycleTo, taken]
  refine ⟨by simp, ?_, ?_⟩
  · rw [List.nodup_cons, List.mem_reverse, (List.reverse_perm newer).nodup_iff]
    exact ⟨apart, (List.nodup_append.mp distinct).1⟩
  · have closed : (child :: (newer ++ [child])).IsChain fun later earlier => edge earlier later :=
      (List.isChain_cons_split.mp chain).1
    simpa using List.isChain_reverse.mpr closed

namespace Adjacency

variable {graph : Adjacency} {path : List String} {node child : String}

def Edge (graph : Adjacency) (source target : String) : Prop := target ∈ graph.next source

/-- Edges lead to nodes. -/
def Closed (graph : Adjacency) : Prop := ∀ source target, graph.Edge source target →
  target ∈ graph.keys

/-- The path of a search, with the latest node first. -/
structure Trail (graph : Adjacency) (path : List String) : Prop where
  distinct : path.Nodup
  inside : path ⊆ graph.keys
  chain : path.IsChain fun later earlier => graph.Edge earlier later

theorem trail_single (member : node ∈ graph.keys) : graph.Trail [node] :=
  ⟨by simp, by simpa using member, .singleton _⟩

theorem Trail.length_le (trail : graph.Trail path) : path.length ≤ graph.keys.length :=
  List.Nodup.length_le_of_subset trail.distinct trail.inside

theorem Trail.chain_cons (trail : graph.Trail (node :: path)) (step : graph.Edge node child) :
    (child :: node :: path).IsChain fun later earlier => graph.Edge earlier later :=
  List.isChain_cons_cons.mpr ⟨step, trail.chain⟩

/-- A search goes on to a child that is not on its path. -/
theorem Trail.push (trail : graph.Trail (node :: path)) (closed : graph.Closed)
    (step : graph.Edge node child) (new : child ∉ node :: path) :
    graph.Trail (child :: node :: path) :=
  ⟨List.nodup_cons.mpr ⟨new, trail.distinct⟩,
    List.cons_subset.mpr ⟨closed node child step, trail.inside⟩, trail.chain_cons step⟩

/-- An edge back to the path closes a cycle. -/
theorem Trail.isCycle (trail : graph.Trail (node :: path)) (step : graph.Edge node child)
    (present : child ∈ node :: path) : IsCycle graph.Edge (cycleTo child (node :: path)) :=
  isCycle_cycleTo trail.distinct (trail.chain_cons step) present

end Adjacency

end PlcAudit.Graph
