import PlcAudit.Issue.Basic
import PlcAudit.Proofs.Data.Order

/-!
The order of reports. Sorting keeps every issue, puts the more severe first and then goes by file,
line and rule, and leaves issues that agree in all of these in the order they came in. These facts
determine the sorted list.
-/

namespace PlcAudit

theorem Severity.rank_inj {left right : Severity} : left.rank = right.rank ↔ left = right := by
  cases left <;> cases right <;> simp [Severity.rank]

private theorem compare_string_lt {left right : String} :
    compare left right = .lt ↔ left < right :=
  compareOfLessAndEq_eq_lt

private theorem compare_string_isLE {left right : String} :
    (compare left right).isLE = true ↔ left ≤ right := by
  rw [← String.not_lt, ← compare_string_lt]
  refine ⟨Std.OrientedCmp.not_lt_of_isLE, fun notBelow => ?_⟩
  exact Decidable.byContradiction fun above => notBelow (Std.OrientedCmp.lt_of_not_isLE above)

namespace Issue

/-- The first issue may stand before the second in a report. -/
def NotAfter (left right : Issue) : Prop :=
  right.severity.rank < left.severity.rank ∨ right.severity.rank = left.severity.rank ∧
    (left.file < right.file ∨ left.file = right.file ∧
      (left.line < right.line ∨ left.line = right.line ∧ left.ruleId ≤ right.ruleId))

/-- The order of reports does not tell two issues apart. -/
def Ties (left right : Issue) : Prop :=
  left.severity = right.severity ∧ left.file = right.file ∧ left.line = right.line ∧
    left.ruleId = right.ruleId

instance (left right : Issue) : Decidable (left.Ties right) :=
  inferInstanceAs (Decidable (_ ∧ _))

instance : Std.TransCmp order :=
  inferInstanceAs (Std.TransCmp (compareLex
    (fun left right => compareOn (fun issue : Issue => issue.severity.rank) right left)
    (compareLex (compareOn file) (compareLex (compareOn line) (compareOn ruleId)))))

theorem order_isLE_iff {left right : Issue} :
    (order left right).isLE = true ↔ left.NotAfter right := by
  simp only [order, NotAfter, Ordering.isLE_then_iff_or, Std.LawfulEqOrd.compare_eq_iff_eq,
    compare_string_lt, compare_string_isLE, Nat.compare_eq_lt]

theorem order_eq_iff {left right : Issue} : order left right = .eq ↔ left.Ties right := by
  simp only [order, Ties, Ordering.then_eq_eq, Std.LawfulEqOrd.compare_eq_iff_eq,
    Severity.rank_inj, @eq_comm _ right.severity]

theorem Ties.refl (issue : Issue) : issue.Ties issue := ⟨rfl, rfl, rfl, rfl⟩

theorem Ties.symm {left right : Issue} (ties : left.Ties right) : right.Ties left :=
  order_eq_iff.mp (Std.OrientedCmp.eq_symm (order_eq_iff.mpr ties))

theorem Ties.trans {first second third : Issue} (front : first.Ties second)
    (back : second.Ties third) : first.Ties third :=
  order_eq_iff.mp (Std.TransCmp.eq_trans (order_eq_iff.mpr front) (order_eq_iff.mpr back))

/-- Two issues that may stand before each other tie. -/
theorem NotAfter.antisymm {left right : Issue} (before : left.NotAfter right)
    (after : right.NotAfter left) : left.Ties right :=
  order_eq_iff.mp <|
    Std.OrientedCmp.isLE_antisymm (order_isLE_iff.mpr before) (order_isLE_iff.mpr after)

theorem Ties.notAfter {left right : Issue} (ties : left.Ties right) : left.NotAfter right :=
  order_isLE_iff.mp (by rw [order_eq_iff.mpr ties]; rfl)

/-! Sorting -/

private theorem order_trans (first second third : Issue) (before : (order first second).isLE = true)
    (after : (order second third).isLE = true) : (order first third).isLE = true :=
  Std.TransCmp.isLE_trans before after

private theorem order_total (left right : Issue) :
    ((order left right).isLE || (order right left).isLE) = true := by
  by_cases before : (order left right).isLE = true
  · simp [before]
  · have after := Std.OrientedCmp.lt_of_not_isLE before
    simp [after]

theorem sorted_perm (issues : List Issue) : (sorted issues).Perm issues :=
  List.mergeSort_perm ..

theorem sorted_notAfter (issues : List Issue) : (sorted issues).Pairwise NotAfter :=
  (List.pairwise_mergeSort order_trans order_total issues).imp order_isLE_iff.mp

/-- Sorting leaves issues that tie in their order. -/
theorem sorted_ties (issues : List Issue) (issue : Issue) :
    (sorted issues).filter (issue.Ties ·) = issues.filter (issue.Ties ·) := by
  apply mergeSort_filter order_trans order_total
  intro left right isLeft isRight
  have leftTies : issue.Ties left := of_decide_eq_true isLeft
  have rightTies : issue.Ties right := of_decide_eq_true isRight
  exact order_isLE_iff.mpr (leftTies.symm.trans rightTies).notAfter

/-- The first issue of a sorted list may stand before all of them. -/
private theorem head_notAfter {head issue : Issue} {rest : List Issue}
    (sorted : (head :: rest).Pairwise NotAfter) (member : issue ∈ head :: rest) :
    head.NotAfter issue := by
  rcases List.mem_cons.mp member with same | later
  · exact same ▸ (Ties.refl issue).notAfter
  · exact (List.pairwise_cons.mp sorted).1 issue later

private theorem mem_of_ties {first second : List Issue} {issue : Issue}
    (same : first.filter (issue.Ties ·) = second.filter (issue.Ties ·)) (member : issue ∈ first) :
    issue ∈ second := by
  have kept : issue ∈ first.filter (issue.Ties ·) :=
    List.mem_filter.mpr ⟨member, decide_eq_true (Ties.refl issue)⟩
  rw [same] at kept
  exact (List.mem_filter.mp kept).1

/-- A sorted list is determined by its classes of issues that tie. -/
theorem eq_of_ties {first second : List Issue} (firstSorted : first.Pairwise NotAfter)
    (secondSorted : second.Pairwise NotAfter)
    (same : ∀ issue : Issue, first.filter (issue.Ties ·) = second.filter (issue.Ties ·)) :
    first = second := by
  induction first generalizing second with
  | nil =>
    apply (List.eq_nil_iff_forall_not_mem.mpr fun issue member => ?_).symm
    exact List.not_mem_nil (mem_of_ties (same issue).symm member)
  | cons head rest ih =>
    have present := mem_of_ties (same head) (List.mem_cons_self ..)
    cases second with
    | nil => cases present
    | cons other more =>
      -- Each head may stand before the other, so they open the same class, and are its first issue.
      have ties : head.Ties other :=
        (head_notAfter firstSorted (mem_of_ties (same other).symm (List.mem_cons_self ..))).antisymm
          (head_notAfter secondSorted present)
      have opened := same head
      simp only [List.filter_cons, Ties.refl, ties, decide_true, if_true] at opened
      obtain ⟨rfl, _⟩ := List.cons.inj opened
      congr 1
      refine ih (List.pairwise_cons.mp firstSorted).2 (List.pairwise_cons.mp secondSorted).2
        fun issue => ?_
      have classes := same issue
      simp only [List.filter_cons] at classes
      split at classes
      · exact (List.cons.inj classes).2
      · exact classes

end Issue

end PlcAudit
