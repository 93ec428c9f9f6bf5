import Mathlib.Data.List.Basic
import PlcAudit.Proofs.Graph.CycleStep

/-!
The search for cycles. Every cycle it notes is a simple one read from its smallest node, and the
nodes it is done with are in an order in which no edge leads back but those that close a noted
cycle. So every cycle has a step in common with a noted one.
-/

namespace PlcAudit.Graph

open Relation

/-! Cycles from their smallest node -/

/-- No member comes before the first one in the order of names. -/
def FromSmallest (cycle : List String) : Prop :=
  ∀ first ∈ cycle.head?, ∀ node ∈ cycle, (compare first node).isLE

theorem smaller_isLE (left right : String) :
    (compare (smaller left right) left).isLE ∧ (compare (smaller left right) right).isLE := by
  unfold smaller
  split
  · rename_i below
    have less : compare right left = .lt := by simpa using below
    exact ⟨by simp [less], by simp⟩
  · rename_i above
    have notLess : compare right left ≠ .lt := by simpa using above
    refine ⟨by simp, Ordering.isLE_iff_ne_gt.mpr fun greater => ?_⟩
    exact notLess (Std.OrientedCmp.gt_iff_lt.mp greater)

theorem foldl_smaller_mem (first : String) (rest : List String) :
    rest.foldl smaller first ∈ first :: rest := by
  induction rest generalizing first with
  | nil => simp
  | cons head rest ih =>
    have inside := ih (smaller first head)
    rcases List.mem_cons.mp inside with same | later
    · rw [List.foldl_cons, same]
      unfold smaller
      split <;> simp
    · exact List.mem_cons_of_mem _ (List.mem_cons_of_mem _ later)

theorem foldl_smaller_isLE (first : String) (rest : List String) :
    ∀ node ∈ first :: rest, (compare (rest.foldl smaller first) node).isLE := by
  induction rest generalizing first with
  | nil => simp
  | cons head rest ih =>
    intro node member
    obtain ⟨leFirst, leHead⟩ := smaller_isLE first head
    have start := ih (smaller first head) _ (List.mem_cons_self ..)
    rcases List.mem_cons.mp member with same | inside
    · rw [same]
      exact Std.TransCmp.isLE_trans start leFirst
    · rcases List.mem_cons.mp inside with same | later
      · rw [same]
        exact Std.TransCmp.isLE_trans start leHead
      · exact ih _ node (List.mem_cons_of_mem _ later)

/-- Reading a cycle from its smallest node keeps it a cycle. -/
theorem IsCycle.rotated {edge : String → String → Prop} {cycle : List String}
    (isCycle : IsCycle edge cycle) :
    IsCycle edge (rotated cycle) ∧ FromSmallest (rotated cycle) := by
  cases cycle with
  | nil => exact absurd rfl isCycle.nonempty
  | cons first rest =>
    obtain ⟨front, back, split⟩ := List.append_of_mem (foldl_smaller_mem first rest)
    have least := foldl_smaller_isLE first rest
    simp only [Graph.rotated]
    generalize rest.foldl smaller first = smallest at split least ⊢
    rw [split] at isCycle least ⊢
    have apart : ∀ node ∈ front, (decide (node ≠ smallest)) = true := by
      intro node member
      have different := (List.nodup_append.mp isCycle.distinct).2.2 node member smallest
        (List.mem_cons_self ..)
      simpa using different
    rw [List.dropWhile_append_of_pos apart, List.takeWhile_append_of_pos apart]
    simp only [ne_eq, not_true_eq_false, decide_false, Bool.false_eq_true, not_false_eq_true,
      List.dropWhile_cons_of_neg, List.takeWhile_cons_of_neg, List.append_nil]
    refine ⟨isCycle.rotate, ?_⟩
    intro head isHead node member
    obtain rfl : smallest = head := by simpa using isHead
    exact least node (List.perm_append_comm.mem_iff.mp member)

/-- Every edge from a node of the list leads to a node behind it. -/
def Ordered (edge : String → String → Prop) : List String → Prop
  | [] => True
  | node :: rest => (∀ child, edge node child → child ∈ rest) ∧ Ordered edge rest

section Order

variable {edge : String → String → Prop} {nodes : List String} {source target node : String}

/-- Fewer edges leave the order as it is. -/
theorem Ordered.mono {fewer : String → String → Prop}
    (included : ∀ source target, fewer source target → edge source target)
    (ordered : Ordered edge nodes) : Ordered fewer nodes := by
  induction nodes with
  | nil => trivial
  | cons head rest ih =>
    exact ⟨fun child first => ordered.1 child (included head child first), ih ordered.2⟩

theorem Ordered.step (ordered : Ordered edge nodes) (member : source ∈ nodes)
    (first : edge source target) : target ∈ nodes := by
  induction nodes with
  | nil => cases member
  | cons head rest ih =>
    apply List.mem_cons_of_mem
    rcases List.mem_cons.mp member with same | later
    · exact ordered.1 target (same ▸ first)
    · exact ih ordered.2 later

theorem Ordered.reach (ordered : Ordered edge nodes) (member : source ∈ nodes)
    (reached : TransGen edge source target) : target ∈ nodes := by
  induction reached with
  | single first => exact ordered.step member first
  | tail _ next ih => exact ordered.step ih next

/-- No cycle leads through ordered nodes. -/
theorem Ordered.acyclic (ordered : Ordered edge nodes) (distinct : nodes.Nodup)
    (member : node ∈ nodes) : ¬ TransGen edge node node := by
  induction nodes with
  | nil => cases member
  | cons head rest ih =>
    obtain ⟨absent, apart⟩ := List.nodup_cons.mp distinct
    rcases List.mem_cons.mp member with same | later
    · subst node
      intro around
      obtain ⟨child, first, back⟩ := TransGen.head'_iff.mp around
      have behind := ordered.1 child first
      rcases reflTransGen_iff_eq_or_transGen.mp back with same | further
      · exact absent (same ▸ behind)
      · exact absent (ordered.2.reach behind further)
    · exact ih ordered.2 apart later

end Order

namespace CycleSearch

variable {graph : Adjacency} {path : List String} {search : CycleSearch}

/-- A step of some of the cycles. -/
def Met (cycles : List (List String)) (source target : String) : Prop :=
  ∃ cycle ∈ cycles, (source, target) ∈ cycleSteps cycle

theorem Met.mono {fewer more : List (List String)} {source target : String}
    (included : fewer ⊆ more) (met : Met fewer source target) : Met more source target := by
  obtain ⟨cycle, member, step⟩ := met
  exact ⟨cycle, included member, step⟩

/-- An edge that is a step of none of the cycles. -/
def Unmet (graph : Adjacency) (cycles : List (List String)) (source target : String) : Prop :=
  graph.Edge source target ∧ ¬ Met cycles source target

/-- More cycles leave fewer edges over, so that what was ordered stays ordered. -/
theorem ordered_of_subset {fewer more : List (List String)} {nodes : List String}
    (included : fewer ⊆ more) (ordered : Ordered (Unmet graph fewer) nodes) :
    Ordered (Unmet graph more) nodes :=
  ordered.mono fun _ _ left => ⟨left.1, fun met => left.2 (met.mono included)⟩

/-- The invariant of a search whose path is `path`: what it has noted are cycles, and what it is
done with is ordered by the edges that are no step of them. -/
structure Searching (graph : Adjacency) (path : List String) (search : CycleSearch) : Prop where
  distinct : search.done.Nodup
  inside : search.done ⊆ graph.keys
  apart : ∀ node ∈ path, node ∉ search.done
  cycles : ∀ cycle ∈ search.cycles, IsCycle graph.Edge cycle ∧ FromSmallest cycle
  once : search.cycles.Nodup
  ordered : Ordered (Unmet graph search.cycles) search.done

/-- What a visit of a node leaves behind: the search is done with the node, or has closed a cycle
with the step to it from the latest node of the path. -/
structure Visited (graph : Adjacency) (path : List String) (node : String)
    (before after : CycleSearch) : Prop where
  searching : Searching graph path after
  done : before.done ⊆ after.done
  cycles : before.cycles ⊆ after.cycles
  settled : node ∈ after.done ∨ ∃ latest ∈ path.head?, Met after.cycles latest node

theorem start_searching (graph : Adjacency) : Searching graph [] {} where
  distinct := List.nodup_nil
  inside := List.nil_subset _
  apart := by simp
  cycles := by simp
  once := List.nodup_nil
  ordered := trivial

theorem mem_note (search : CycleSearch) (cycle : List String) :
    ∀ other, other ∈ (search.note cycle).cycles ↔ other = cycle ∨ other ∈ search.cycles := by
  intro other
  unfold note
  split
  · rename_i present
    have known : cycle ∈ search.cycles := by simpa using present
    exact ⟨.inr, fun member => member.elim (fun same => same ▸ known) id⟩
  · simp [or_comm]

@[simp] theorem done_note (search : CycleSearch) (cycle : List String) :
    (search.note cycle).done = search.done := by
  unfold note
  split <;> rfl

theorem cycles_subset_note (search : CycleSearch) (cycle : List String) :
    search.cycles ⊆ (search.note cycle).cycles :=
  fun other member => (search.mem_note cycle other).mpr (.inr member)

theorem nodup_note (once : search.cycles.Nodup) (cycle : List String) :
    (search.note cycle).cycles.Nodup := by
  unfold note
  split
  · exact once
  · rename_i new
    have absent : cycle ∉ search.cycles := by simpa using new
    refine List.nodup_append.mpr ⟨once, by simp, fun old member last isLast => ?_⟩
    rw [List.mem_singleton.mp isLast]
    exact fun same => absent (same ▸ member)

/-- Noting a cycle keeps the invariant. -/
theorem Searching.note (searching : Searching graph path search) {cycle : List String}
    (isCycle : IsCycle graph.Edge cycle) (least : FromSmallest cycle) :
    Searching graph path (search.note cycle) where
  distinct := by simpa using searching.distinct
  inside := by simpa using searching.inside
  apart := by simpa using searching.apart
  cycles := by
    intro other member
    rcases (search.mem_note cycle other).mp member with same | old
    · exact same ▸ ⟨isCycle, least⟩
    · exact searching.cycles other old
  once := nodup_note searching.once cycle
  ordered := by
    rw [done_note]
    exact ordered_of_subset (search.cycles_subset_note cycle) searching.ordered

/-- The search is done with a node when it has visited all children of it. -/
theorem Searching.finish {node : String} (member : node ∈ graph.keys) (outside : node ∉ path)
    (searching : Searching graph (node :: path) search)
    (settled : ∀ child, Unmet graph search.cycles node child → child ∈ search.done) :
    Searching graph path { search with done := node :: search.done } where
  distinct := List.nodup_cons.mpr ⟨searching.apart node (List.mem_cons_self ..),
    searching.distinct⟩
  inside := List.cons_subset.mpr ⟨member, searching.inside⟩
  apart := by
    intro other onPath done
    rcases List.mem_cons.mp done with same | before
    · exact outside (same ▸ onPath)
    · exact searching.apart other (List.mem_cons_of_mem _ onPath) before
  cycles := searching.cycles
  once := searching.once
  ordered := ⟨settled, searching.ordered⟩

/-- One visit after another. -/
theorem visited_all {visit : CycleSearch → String → CycleSearch} {children : List String}
    (each : ∀ child ∈ children, ∀ search, Searching graph path search →
      Visited graph path child search (visit search child))
    (start : Searching graph path search) :
    Searching graph path (children.foldl visit search) ∧
      search.done ⊆ (children.foldl visit search).done ∧
      search.cycles ⊆ (children.foldl visit search).cycles ∧
      ∀ child ∈ children, child ∈ (children.foldl visit search).done ∨
        ∃ latest ∈ path.head?, Met (children.foldl visit search).cycles latest child := by
  induction children generalizing search with
  | nil => exact ⟨start, List.Subset.refl _, List.Subset.refl _, by simp⟩
  | cons child rest ih =>
    have first := each child (List.mem_cons_self ..) search start
    obtain ⟨after, done, cycles, settled⟩ :=
      ih (fun other member => each other (List.mem_cons_of_mem _ member)) first.searching
    refine ⟨after, List.Subset.trans first.done done, List.Subset.trans first.cycles cycles, ?_⟩
    intro other member
    rcases List.mem_cons.mp member with same | later
    · subst other
      refine first.settled.imp (fun finished => done finished) ?_
      rintro ⟨latest, isLatest, met⟩
      exact ⟨latest, isLatest, met.mono cycles⟩
    · exact settled other later

/-- Exploring a node that is new to the search keeps the invariant and is done with the node. -/
theorem explore_visited (closed : graph.Closed) {fuel : Nat} {node : String}
    (trail : graph.Trail (node :: path)) (new : node ∉ search.done)
    (enough : graph.keys.length ≤ fuel + path.length) (searching : Searching graph path search) :
    Visited graph path node search (explore graph.next fuel path node search) := by
  induction fuel generalizing path node search with
  | zero =>
    -- Without fuel, the path would hold more nodes than there are.
    have short := trail.length_le
    simp only [List.length_cons] at short
    omega
  | succ fuel ih =>
    have below : Searching graph (node :: path) search :=
      { searching with
        apart := fun other member => (List.mem_cons.mp member).elim (fun same => same ▸ new)
          (searching.apart other) }
    have each : ∀ child ∈ graph.next node, ∀ search, Searching graph (node :: path) search →
        Visited graph (node :: path) child search
          (if (node :: path).contains child then
            search.note (rotated (cycleTo child (node :: path)))
          else if search.done.contains child then search
          else explore graph.next fuel (node :: path) child search) := by
      intro child step search known
      split
      · rename_i back
        obtain ⟨isCycle, least⟩ := (trail.isCycle step (by simpa using back)).rotated
        refine ⟨known.note isCycle least, by simp, cycles_subset_note _ _, .inr ⟨node, rfl, ?_⟩⟩
        exact ⟨_, (mem_note _ _ _).mpr (.inl rfl),
          (mem_cycleSteps_rotated _).mpr mem_cycleSteps_cycleTo⟩
      · rename_i forward
        split
        · rename_i finished
          exact ⟨known, List.Subset.refl _, List.Subset.refl _, .inl (by simpa using finished)⟩
        · rename_i fresh
          exact ih (trail.push closed step (by simpa using forward)) (by simpa using fresh)
            (by simp only [List.length_cons]; omega) known
    obtain ⟨after, done, cycles, settled⟩ := visited_all each below
    obtain ⟨outside, _⟩ := List.nodup_cons.mp trail.distinct
    simp only [explore]
    refine ⟨after.finish (trail.inside (List.mem_cons_self ..)) outside ?_,
      List.Subset.trans done (List.subset_cons_self ..), cycles, .inl (List.mem_cons_self ..)⟩
    intro child unmet
    refine (settled child unmet.1).resolve_right ?_
    rintro ⟨latest, isLatest, met⟩
    cases isLatest
    exact unmet.2 met

/-- A search never goes deeper than there are nodes, so more fuel changes nothing. -/
theorem explore_more (closed : graph.Closed) {fuel more : Nat} {node : String}
    (trail : graph.Trail (node :: path)) (enough : graph.keys.length ≤ fuel + path.length)
    (larger : fuel ≤ more) :
    explore graph.next more path node search = explore graph.next fuel path node search := by
  induction fuel generalizing path node search more with
  | zero =>
    have short := trail.length_le
    simp only [List.length_cons] at short
    omega
  | succ fuel ih =>
    obtain ⟨more, rfl⟩ := Nat.exists_eq_add_of_le' (Nat.le_trans (Nat.le_add_left 1 fuel) larger)
    simp only [explore]
    rw [List.foldl_ext]
    intro search child step
    split
    · rfl
    · rename_i forward
      split
      · rfl
      · exact ih (trail.push closed step (by simpa using forward))
          (by simp only [List.length_cons]; omega) (by omega)

end CycleSearch

namespace Adjacency

open CycleSearch

variable {graph : Adjacency}

/-- The search from all nodes in order, with a bound on its depth. -/
def search (graph : Adjacency) (bound : Nat) : CycleSearch :=
  graph.keys.foldl
    (fun search start =>
      if search.done.contains start then search else search.explore graph.next bound [] start)
    {}

theorem search_more (closed : graph.Closed) {bound : Nat} (enough : graph.keys.length ≤ bound) :
    graph.search bound = graph.search graph.keys.length := by
  unfold search
  apply List.foldl_ext
  intro search start member
  split
  · rfl
  · exact explore_more closed (trail_single member) (Nat.le_refl _) enough

/-- The search keeps its invariant to its end, and is done with every node then. -/
theorem search_searching (closed : graph.Closed) :
    Searching graph [] (graph.search graph.keys.length) ∧
      graph.keys ⊆ (graph.search graph.keys.length).done := by
  have each : ∀ start ∈ graph.keys, ∀ search, Searching graph [] search →
      Visited graph [] start search
        (if search.done.contains start then search
        else search.explore graph.next graph.keys.length [] start) := by
    intro start member search known
    split
    · rename_i finished
      exact ⟨known, List.Subset.refl _, List.Subset.refl _, .inl (by simpa using finished)⟩
    · rename_i fresh
      exact explore_visited closed (trail_single member) (by simpa using fresh) (Nat.le_refl _)
        known
  obtain ⟨after, _, _, settled⟩ := visited_all each (start_searching graph)
  exact ⟨after, fun start member => (settled start member).resolve_right (by simp)⟩

theorem search_done_perm (closed : graph.Closed) (distinct : graph.keys.Nodup) :
    (graph.search graph.keys.length).done.Perm graph.keys := by
  obtain ⟨searching, all⟩ := search_searching closed
  apply (List.perm_ext_iff_of_nodup searching.distinct distinct).mpr
  exact fun node => ⟨fun member => searching.inside member, fun member => all member⟩

theorem mem_cycles (closed : graph.Closed) {cycle : List String} (member : cycle ∈ graph.cycles) :
    IsCycle graph.Edge cycle ∧ FromSmallest cycle :=
  (search_searching closed).1.cycles cycle member

theorem cycles_nodup (closed : graph.Closed) : graph.cycles.Nodup :=
  (search_searching closed).1.once

/-- The edges that are no step of a cycle that the search meets have no cycle. -/
theorem unmet_acyclic (closed : graph.Closed) (node : String) :
    ¬ TransGen (Unmet graph graph.cycles) node node := by
  obtain ⟨searching, all⟩ := search_searching closed
  intro around
  have member : node ∈ graph.keys := by
    obtain ⟨last, _, step⟩ := TransGen.tail'_iff.mp around
    exact closed last node step.1
  exact searching.ordered.acyclic searching.distinct (all member) around

/-- Every cycle has a step in common with a cycle that the search meets. -/
theorem exists_met_step (closed : graph.Closed) {cycle : List String}
    (isCycle : IsCycle graph.Edge cycle) :
    ∃ step ∈ cycleSteps cycle, Met graph.cycles step.1 step.2 := by
  by_contra none
  have unmet : IsCycle (Unmet graph graph.cycles) cycle :=
    isCycle.of_steps fun step member =>
      ⟨isCycle.edge_of_step member, fun met => none ⟨step, member, met⟩⟩
  obtain ⟨node, present⟩ := List.exists_mem_of_ne_nil _ unmet.nonempty
  exact unmet_acyclic closed node (unmet.transGen present)

/-- The search meets no cycle exactly when there is none. -/
theorem cycles_eq_nil_iff (closed : graph.Closed) :
    graph.cycles = [] ↔ ∀ node, ¬ TransGen graph.Edge node node := by
  constructor
  · intro empty node around
    have unmet : ∀ source target, graph.Edge source target →
        Unmet graph graph.cycles source target := by
      intro source target step
      refine ⟨step, ?_⟩
      rintro ⟨cycle, member, _⟩
      rw [empty] at member
      cases member
    exact unmet_acyclic closed node (TransGen.mono unmet _ _ around)
  · intro acyclic
    apply List.eq_nil_iff_forall_not_mem.mpr
    intro cycle member
    obtain ⟨isCycle, _⟩ := mem_cycles closed member
    obtain ⟨node, present⟩ := List.exists_mem_of_ne_nil _ isCycle.nonempty
    exact acyclic node (isCycle.transGen present)

end Adjacency

end PlcAudit.Graph
