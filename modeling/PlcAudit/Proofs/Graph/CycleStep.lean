import Mathlib.Data.List.Forall2
import Mathlib.Data.List.Rotate
import PlcAudit.Graph.Dependency
import PlcAudit.Proofs.Graph.Walk

/-!
The steps of a cycle. They are the same from whichever member the cycle is read, and distinct names
form a cycle exactly when each step is an edge.
-/

namespace PlcAudit.Graph

variable {edge : String → String → Prop} {cycle : List String} {source target : String}

theorem cycleSteps_eq_zip_rotate (cycle : List String) :
    cycleSteps cycle = cycle.zip (cycle.rotate 1) := by
  cases cycle with
  | nil => rfl
  | cons first rest => simp [cycleSteps]

/-- Reading a cycle from another member keeps its steps. -/
theorem mem_cycleSteps_append_comm {step : String × String} (front back : List String) :
    step ∈ cycleSteps (back ++ front) ↔ step ∈ cycleSteps (front ++ back) := by
  have turned : cycleSteps (back ++ front) = (cycleSteps (front ++ back)).rotate front.length := by
    rw [cycleSteps_eq_zip_rotate, cycleSteps_eq_zip_rotate, List.zip,
      List.zipWith_rotate_distrib _ _ _ _ (List.length_rotate ..).symm, List.rotate_rotate,
      Nat.add_comm, ← List.rotate_rotate, List.rotate_append_length_eq]
  rw [turned, List.mem_rotate]

theorem isChain_iff_cycleSteps (cycle : List String) :
    (cycle ++ cycle.take 1).IsChain edge ↔ ∀ step ∈ cycleSteps cycle, edge step.1 step.2 := by
  cases cycle with
  | nil => simp [cycleSteps]
  | cons first rest =>
    have closed : (first :: rest).take 1 = [first] := rfl
    rw [closed, List.isChain_cons_append_singleton_iff_forall₂, List.forall₂_iff_zip]
    simp [cycleSteps]

theorem IsCycle.edge_of_step (isCycle : IsCycle edge cycle)
    (step : (source, target) ∈ cycleSteps cycle) : edge source target :=
  (isChain_iff_cycleSteps cycle).mp isCycle.steps _ step

/-- A cycle of one relation whose steps are all in another is a cycle of that too. -/
theorem IsCycle.of_steps {other : String → String → Prop} (isCycle : IsCycle edge cycle)
    (steps : ∀ step ∈ cycleSteps cycle, other step.1 step.2) : IsCycle other cycle :=
  ⟨isCycle.nonempty, isCycle.distinct, (isChain_iff_cycleSteps cycle).mpr steps⟩

theorem mem_of_mem_cycleSteps (step : (source, target) ∈ cycleSteps cycle) :
    source ∈ cycle ∧ target ∈ cycle := by
  rw [cycleSteps_eq_zip_rotate] at step
  obtain ⟨first, second⟩ := List.of_mem_zip step
  exact ⟨first, List.mem_rotate.mp second⟩

/-- The last member steps back to the first. -/
theorem closing_mem_cycleSteps (first last : String) (between : List String) :
    (last, first) ∈ cycleSteps (first :: (between ++ [last])) := by
  have split : cycleSteps (first :: (between ++ [last])) =
      (first :: between).zip (between ++ [last]) ++ [(last, first)] := by
    have apart : cycleSteps (first :: (between ++ [last])) =
        ((first :: between) ++ [last]).zip ((between ++ [last]) ++ [first]) := by
      simp [cycleSteps]
    rw [apart, List.zip_append (by simp)]
    rfl
  rw [split]
  exact List.mem_append_right _ (List.mem_singleton_self _)

/-- A cycle that is closed on a search path has the step that closes it. -/
theorem mem_cycleSteps_cycleTo {node child : String} {path : List String} :
    (node, child) ∈ cycleSteps (cycleTo child (node :: path)) := by
  unfold cycleTo
  by_cases same : node = child
  · subst child
    simp [cycleSteps]
  · rw [List.takeWhile_cons_of_pos (by simpa using same), List.reverse_cons]
    exact closing_mem_cycleSteps child node _

/-- A step from a member to itself is all there is to a cycle. -/
theorem eq_singleton_of_self_step {node : String} (distinct : cycle.Nodup)
    (step : (node, node) ∈ cycleSteps cycle) : cycle = [node] := by
  obtain ⟨front, back, rfl⟩ := List.append_of_mem (mem_of_mem_cycleSteps step).1
  -- Read from the node, a cycle with more members steps on to the next of them first.
  rw [← mem_cycleSteps_append_comm, List.cons_append] at step
  have apart : node ∉ back ++ front := by
    have turned := List.perm_append_comm.nodup_iff.mp distinct
    exact (List.nodup_cons.mp turned).1
  cases others : back ++ front with
  | nil =>
    obtain ⟨rfl, rfl⟩ := List.append_eq_nil_iff.mp others
    rfl
  | cons second rest =>
    rw [others] at step apart
    simp only [cycleSteps, List.drop_one, List.tail_cons, List.take_succ_cons, List.take_zero,
      List.cons_append, List.zip_cons_cons, List.mem_cons, Prod.mk.injEq] at step
    rcases step with ⟨_, same⟩ | later
    · exact absurd (same ▸ List.mem_cons_self ..) apart
    · exact absurd (List.of_mem_zip later).1 apart

theorem mem_cycleSteps_rotated {step : String × String} (cycle : List String) :
    step ∈ cycleSteps (rotated cycle) ↔ step ∈ cycleSteps cycle := by
  cases cycle with
  | nil => rfl
  | cons first rest =>
    unfold rotated
    rw [mem_cycleSteps_append_comm, List.takeWhile_append_dropWhile]

end PlcAudit.Graph
