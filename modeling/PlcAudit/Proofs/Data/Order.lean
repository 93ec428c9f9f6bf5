/-!
Order in lists. Sorting is stable: items that the order does not tell apart stay as they came in.
A running maximum bounds every item.
-/

namespace PlcAudit

/-- A class of items that may all stand before each other keeps its order. -/
theorem mergeSort_filter {α : Type} {before : α → α → Bool} {inClass : α → Bool}
    (transitive : ∀ first second third, before first second = true → before second third = true →
      before first third = true)
    (total : ∀ first second, (before first second || before second first) = true)
    (tied : ∀ first second, inClass first = true → inClass second = true →
      before first second = true)
    (items : List α) : (items.mergeSort before).filter inClass = items.filter inClass := by
  have ordered : (items.filter inClass).Pairwise fun left right => before left right = true := by
    apply List.pairwise_of_forall_mem_list
    intro left isLeft right isRight
    exact tied left right (List.mem_filter.mp isLeft).2 (List.mem_filter.mp isRight).2
  have inside : (items.filter inClass).Sublist (items.mergeSort before) :=
    List.sublist_mergeSort transitive total ordered List.filter_sublist
  have kept := inside.filter inClass
  rw [List.filter_filter] at kept
  simp only [Bool.and_self] at kept
  exact (kept.eq_of_length ((List.mergeSort_perm items before).filter _).length_eq.symm).symm

theorem le_foldl_max (values : List Nat) (start : Nat) :
    start ≤ values.foldl max start ∧ ∀ value ∈ values, value ≤ values.foldl max start := by
  induction values generalizing start with
  | nil => simp
  | cons head rest ih =>
    obtain ⟨first, later⟩ := ih (max start head)
    simp only [List.foldl_cons, List.mem_cons, forall_eq_or_imp]
    exact ⟨by omega, by omega, later⟩

end PlcAudit
