import Mathlib.Data.List.Basic
import PlcAudit.Proofs.Data.Order
import PlcAudit.Proofs.Data.Table
import PlcAudit.Proofs.Graph.Walk

/-!
Depths that a search remembers. Every depth it knows is the length of a longest walk, and where it
gives up it has met a cycle that can be reached.
-/

namespace PlcAudit.Graph

open Relation

theorem foldl_max_mem (values : List Nat) (start : Nat) :
    values.foldl max start = start ∨ values.foldl max start ∈ values := by
  induction values generalizing start with
  | nil => exact .inl rfl
  | cons head rest ih =>
    simp only [List.foldl_cons, List.mem_cons]
    rcases ih (max start head) with same | member
    · omega
    · exact .inr (.inr member)

theorem le_depthAbove {known : Table String Nat} {nodes : List String} {child : String}
    {depth : Nat} (member : child ∈ nodes) (found : known.find? child = some depth) :
    depth + 1 ≤ depthAbove known nodes :=
  (le_foldl_max _ 0).2 _
    (List.mem_map.mpr ⟨depth, List.mem_filterMap.mpr ⟨child, member, found⟩, rfl⟩)

theorem depthAbove_cases (known : Table String Nat) (nodes : List String) :
    depthAbove known nodes = 0 ∨ ∃ child ∈ nodes, ∃ depth, known.find? child = some depth ∧
      depthAbove known nodes = depth + 1 := by
  refine (foldl_max_mem _ 0).imp id fun member => ?_
  obtain ⟨depth, listed, same⟩ := List.mem_map.mp member
  obtain ⟨child, present, found⟩ := List.mem_filterMap.mp listed
  exact ⟨child, present, depth, found, same.symm⟩

namespace Adjacency

variable {graph : Adjacency} {path : List String} {node start : String}
variable {known : Table String Nat}

/-- Every depth that is known is the length of a longest walk from a node of the graph. -/
structure Known (graph : Adjacency) (known : Table String Nat) : Prop where
  longest : ∀ node depth, known.find? node = some depth → IsLongest graph.Edge node depth
  inside : known.keys ⊆ graph.keys

theorem known_empty (graph : Adjacency) : Known graph .empty where
  longest := fun _ _ found => absurd found (by simp)
  inside := by simp

/-- What a search from some nodes comes to: their depths are known now, or it has met a cycle that
can be reached from one of them. -/
def Settles (graph : Adjacency) (nodes : List String) (known : Table String Nat) :
    Except (List String) (Table String Nat) → Prop
  | .ok after => Known graph after ∧ known.keys ⊆ after.keys ∧ nodes ⊆ after.keys
  | .error cycle => IsCycle graph.Edge cycle ∧
      ∃ node ∈ nodes, ∃ member ∈ cycle, ReflTransGen graph.Edge node member

/-- A node lies one edge above the deepest of its children. -/
theorem Known.depthAbove (sound : Known graph known)
    (all : ∀ child, graph.Edge node child → child ∈ known.keys) :
    IsLongest graph.Edge node (depthAbove known (graph.next node)) where
  attained := by
    rcases depthAbove_cases known (graph.next node) with zero | ⟨child, step, depth, found, same⟩
    · exact ⟨node, zero ▸ .here⟩
    · obtain ⟨target, walk⟩ := (sound.longest child depth found).attained
      exact ⟨target, same ▸ .next step walk⟩
  bound := by
    intro target length walk
    cases walk with
    | here => exact Nat.zero_le _
    | @next _ child _ length step rest =>
      obtain ⟨depth, found⟩ := Table.find?_of_mem_keys (all child step)
      have below := (sound.longest child depth found).bound target length rest
      have above := le_depthAbove step found
      omega

theorem Known.insert (sound : Known graph known) {depth : Nat} (member : node ∈ graph.keys)
    (longest : IsLongest graph.Edge node depth) : Known graph (known.insert node depth) where
  longest := by
    intro other value found
    by_cases same : other = node
    · subst other
      rw [Table.find?_insert_self] at found
      exact Option.some.inj found ▸ longest
    · rw [Table.find?_insert_of_ne _ same] at found
      exact sound.longest other value found
  inside := by
    intro other present
    rcases (Table.mem_keys_insert ..).mp present with same | old
    · exact same ▸ member
    · exact sound.inside old

/-- One node after another, until a cycle is met. -/
theorem settles_all {visit : Table String Nat → String → Except (List String) (Table String Nat)}
    {nodes : List String}
    (each : ∀ node ∈ nodes, ∀ known, Known graph known →
      Settles graph [node] known (visit known node))
    (sound : Known graph known) : Settles graph nodes known (nodes.foldlM visit known) := by
  induction nodes generalizing known with
  | nil => exact ⟨sound, List.Subset.refl _, List.nil_subset _⟩
  | cons node rest ih =>
    have first := each node (List.mem_cons_self ..) known sound
    rw [List.foldlM_cons]
    cases visited : visit known node with
    | error cycle =>
      rw [visited] at first
      obtain ⟨isCycle, start, only, reached⟩ := first
      exact ⟨isCycle, start, List.mem_cons.mpr (.inl (List.mem_singleton.mp only)), reached⟩
    | ok after =>
      rw [visited] at first
      obtain ⟨deeper, grown, present⟩ := first
      have others := ih (fun other member => each other (List.mem_cons_of_mem _ member)) deeper
      change Settles graph (node :: rest) known (rest.foldlM visit after)
      generalize rest.foldlM visit after = result at others ⊢
      cases result with
      | error cycle =>
        obtain ⟨isCycle, start, member, reached⟩ := others
        exact ⟨isCycle, start, List.mem_cons_of_mem _ member, reached⟩
      | ok last =>
        obtain ⟨final, more, listed⟩ := others
        exact ⟨final, List.Subset.trans grown more,
          List.cons_subset.mpr ⟨more (present (List.mem_singleton_self _)), listed⟩⟩

theorem settles_of_contains (sound : Known graph known) (present : known.contains node = true) :
    Settles graph [node] known (.ok known) :=
  ⟨sound, List.Subset.refl _, by simpa using (Table.contains_iff_mem_keys ..).mp present⟩

/-- The depths of a node and of all below it, or a cycle below it. -/
theorem addDepths_settles (closed : graph.Closed) {fuel : Nat}
    (trail : graph.Trail (node :: path)) (enough : graph.keys.length ≤ fuel + path.length)
    (sound : Known graph known) :
    Settles graph [node] known (addDepths graph.next fuel path node known) := by
  induction fuel generalizing path node known with
  | zero =>
    have short := trail.length_le
    simp only [List.length_cons] at short
    omega
  | succ fuel ih =>
    have each : ∀ child ∈ graph.next node, ∀ known, Known graph known →
        Settles graph [child] known
          (if known.contains child then .ok known
          else if (node :: path).contains child then .error (cycleTo child (node :: path))
          else addDepths graph.next fuel (node :: path) child known) := by
      intro child step known sound
      split
      · rename_i present
        exact settles_of_contains sound present
      · split
        · rename_i back
          exact ⟨trail.isCycle step (by simpa using back), child, List.mem_singleton_self _, child,
            List.mem_cons_self .., .refl⟩
        · rename_i forward
          exact ih (trail.push closed step (by simpa using forward))
            (by simp only [List.length_cons]; omega) sound
    have children := settles_all each sound
    simp only [addDepths]
    generalize ((graph.next node).foldlM _ known : Except _ (Table String Nat)) = result
      at children ⊢
    cases result with
    | error cycle =>
      obtain ⟨isCycle, child, step, member, present, reached⟩ := children
      exact ⟨isCycle, node, List.mem_singleton_self _, member, present, .head step reached⟩
    | ok after =>
      obtain ⟨deeper, grown, all⟩ := children
      have inside : node ∈ graph.keys := trail.inside (List.mem_cons_self ..)
      refine ⟨deeper.insert inside (deeper.depthAbove fun child step => all step), ?_, ?_⟩
      · exact fun other present => (Table.mem_keys_insert ..).mpr (.inr (grown present))
      · simpa using (Table.mem_keys_insert ..).mpr (.inl rfl)

private theorem foldlM_ext {nodes : List String}
    {visit other : Table String Nat → String → Except (List String) (Table String Nat)}
    (same : ∀ node ∈ nodes, ∀ known, visit known node = other known node) :
    nodes.foldlM visit known = nodes.foldlM other known := by
  induction nodes generalizing known with
  | nil => rfl
  | cons node rest ih =>
    rw [List.foldlM_cons, List.foldlM_cons, same node (List.mem_cons_self ..)]
    congr 1
    funext after
    exact ih fun child member => same child (List.mem_cons_of_mem _ member)

/-- The path of a search is never longer than there are nodes, so more fuel changes nothing. -/
theorem addDepths_more (closed : graph.Closed) {fuel more : Nat}
    (trail : graph.Trail (node :: path)) (enough : graph.keys.length ≤ fuel + path.length)
    (larger : fuel ≤ more) :
    addDepths graph.next more path node known = addDepths graph.next fuel path node known := by
  induction fuel generalizing path node known more with
  | zero =>
    have short := trail.length_le
    simp only [List.length_cons] at short
    omega
  | succ fuel ih =>
    obtain ⟨more, rfl⟩ := Nat.exists_eq_add_of_le' (Nat.le_trans (Nat.le_add_left 1 fuel) larger)
    simp only [addDepths]
    rw [foldlM_ext]
    intro child step known
    split
    · rfl
    · split
      · rfl
      · rename_i forward
        exact ih (trail.push closed step (by simpa using forward))
          (by simp only [List.length_cons]; omega) (by omega)

theorem depths_settles (closed : graph.Closed) (member : start ∈ graph.keys)
    (sound : Known graph known) : Settles graph [start] known (graph.depths start known) := by
  unfold depths
  split
  · rename_i present
    exact settles_of_contains sound present
  · exact addDepths_settles closed (trail_single member) (Nat.le_refl _) sound

/-- The depth of a node is the length of a longest walk from it; there is none exactly when a cycle
can be reached. -/
theorem depthFrom_spec (closed : graph.Closed) (member : start ∈ graph.keys) :
    match graph.depthFrom start with
    | .ok depth => IsLongest graph.Edge start depth
    | .error cycle => IsCycle graph.Edge cycle ∧
        ∃ member ∈ cycle, ReflTransGen graph.Edge start member := by
  have settled := depths_settles closed member (known_empty graph)
  unfold depthFrom
  generalize graph.depths start .empty = result at settled ⊢
  cases result with
  | error cycle =>
    obtain ⟨isCycle, node, only, reached⟩ := settled
    rw [List.mem_singleton.mp only] at reached
    exact ⟨isCycle, reached⟩
  | ok known =>
    obtain ⟨sound, _, present⟩ := settled
    obtain ⟨depth, found⟩ := Table.find?_of_mem_keys (present (List.mem_singleton_self _))
    have longest := sound.longest start depth found
    simpa [bind, Except.bind, pure, Except.pure, found] using longest

theorem depthFrom_eq_ok_iff (closed : graph.Closed) (member : start ∈ graph.keys) (depth : Nat) :
    graph.depthFrom start = .ok depth ↔ IsLongest graph.Edge start depth := by
  have spec := depthFrom_spec closed member
  cases found : graph.depthFrom start with
  | error cycle =>
    simp only [found] at spec
    obtain ⟨isCycle, node, present, reached⟩ := spec
    constructor
    · intro same
      cases same
    · intro longest
      exact absurd ⟨node, reached, isCycle.transGen present⟩ longest.no_cycle
  | ok other =>
    simp only [found] at spec
    constructor
    · intro same
      exact Except.ok.inj same ▸ spec
    · intro longest
      rw [spec.unique longest]

/-- The greatest depth of the nodes of a graph, zero where there are none. -/
structure IsDeepest (graph : Adjacency) (depth : Nat) : Prop where
  bound : ∀ node ∈ graph.keys, ∃ other, other ≤ depth ∧ IsLongest graph.Edge node other
  attained : graph.keys = [] ∧ depth = 0 ∨ ∃ node ∈ graph.keys, IsLongest graph.Edge node depth

theorem Known.deepest (sound : Known graph known) (all : graph.keys ⊆ known.keys) :
    IsDeepest graph (known.values.foldl max 0) := by
  have each : ∀ node ∈ graph.keys, ∃ other, other ≤ known.values.foldl max 0 ∧
      IsLongest graph.Edge node other := by
    intro node member
    obtain ⟨depth, found⟩ := Table.find?_of_mem_keys (all member)
    have stored := (known.mem_values_iff depth).mpr ⟨node, found⟩
    exact ⟨depth, (le_foldl_max _ 0).2 depth stored, sound.longest node depth found⟩
  refine ⟨each, ?_⟩
  rcases foldl_max_mem known.values 0 with zero | stored
  · rw [zero] at each ⊢
    rcases graph.keys.eq_nil_or_concat with empty | ⟨_, node, split⟩
    · exact .inl ⟨empty, rfl⟩
    · have member : node ∈ graph.keys := by simp [split]
      obtain ⟨depth, small, longest⟩ := each node member
      exact .inr ⟨node, member, Nat.le_zero.mp small ▸ longest⟩
  · obtain ⟨node, found⟩ := (known.mem_values_iff _).mp stored
    exact .inr ⟨node, sound.inside (Table.mem_keys_of_find? found), sound.longest node _ found⟩

/-- The greatest depth of all nodes, or a cycle. -/
theorem maxDepth_spec (closed : graph.Closed) :
    match graph.maxDepth with
    | .ok depth => IsDeepest graph depth
    | .error cycle => IsCycle graph.Edge cycle := by
  have settled : Settles graph graph.keys .empty
      (graph.keys.foldlM (fun known start => graph.depths start known) .empty) :=
    settles_all (fun _ member _ sound => depths_settles closed member sound) (known_empty graph)
  unfold maxDepth
  generalize graph.keys.foldlM (fun known start => graph.depths start known) .empty = result
    at settled ⊢
  cases result with
  | error cycle => exact settled.1
  | ok known => exact settled.1.deepest settled.2.2

end Adjacency

end PlcAudit.Graph
