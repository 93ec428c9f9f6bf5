import PlcAudit.Proofs.Issue.Order

/-!
Repeated findings. Deduplication keeps the first issue at each place, that is of each file, line and
rule. In report order the first one at a place is also one of the most severe there.
-/

namespace PlcAudit.Issue

/-! The first issue at each place -/

theorem firstPlaces_sublist (seen : List (String × Nat × String)) (issues : List Issue) :
    (firstPlaces seen issues).Sublist issues := by
  induction issues generalizing seen with
  | nil => exact .slnil
  | cons issue rest ih =>
    rw [firstPlaces]
    split
    · exact (ih seen).cons issue
    · exact (ih _).cons_cons issue

/-- Of the issues at a place the first is left, and none if the place has been seen. -/
theorem filter_firstPlaces (seen : List (String × Nat × String)) (issues : List Issue)
    (place : String × Nat × String) :
    (firstPlaces seen issues).filter (·.place = place) =
      if place ∈ seen then [] else (issues.find? (·.place = place)).toList := by
  induction issues generalizing seen with
  | nil => simp [firstPlaces]
  | cons issue rest ih =>
    rw [firstPlaces]
    by_cases here : issue.place = place
    · subst here
      by_cases known : issue.place ∈ seen
      · simp [known, ih]
      · simp [known, ih]
    · by_cases known : issue.place ∈ seen
      · simp [known, here, ih]
      · simp [known, here, Ne.symm here, ih]

theorem deduplicated_sublist (issues : List Issue) : (deduplicated issues).Sublist issues :=
  firstPlaces_sublist [] issues

theorem filter_deduplicated (issues : List Issue) (place : String × Nat × String) :
    (deduplicated issues).filter (·.place = place) =
      (issues.find? (·.place = place)).toList := by
  rw [deduplicated, filter_firstPlaces]
  simp

/-- A list without repetitions is left as it is. -/
theorem firstPlaces_eq_self {seen : List (String × Nat × String)} {issues : List Issue}
    (distinct : (issues.map place).Nodup) (fresh : ∀ issue ∈ issues, issue.place ∉ seen) :
    firstPlaces seen issues = issues := by
  induction issues generalizing seen with
  | nil => rfl
  | cons issue rest ih =>
    obtain ⟨apart, distinct⟩ := List.nodup_cons.mp distinct
    obtain ⟨first, later⟩ := List.forall_mem_cons.mp fresh
    rw [firstPlaces, if_neg (by simpa using first)]
    congr 1
    refine ih distinct fun other member => ?_
    rw [List.mem_cons, not_or]
    exact ⟨fun same => apart (same ▸ List.mem_map_of_mem member), later other member⟩

theorem nodup_places_deduplicated (issues : List Issue) :
    ((deduplicated issues).map place).Nodup := by
  rw [List.nodup_iff_count]
  intro place
  have one : ((issues.find? (·.place = place)).toList).length ≤ 1 := by
    cases issues.find? (·.place = place) <;> simp
  rw [← filter_deduplicated, ← List.countP_eq_length_filter] at one
  rw [List.count, List.countP_map]
  refine Nat.le_trans (Nat.le_of_eq (List.countP_congr fun issue _ => ?_)) one
  simp

theorem deduplicated_deduplicated (issues : List Issue) :
    deduplicated (deduplicated issues) = deduplicated issues :=
  firstPlaces_eq_self (nodup_places_deduplicated issues) (by simp)

/-! Reports -/

theorem NotAfter.rank_le {left right : Issue} (before : left.NotAfter right) :
    right.severity.rank ≤ left.severity.rank := by
  rcases before with above | ⟨level, _⟩
  · exact Nat.le_of_lt above
  · exact Nat.le_of_eq level

/-- In report order no issue of a class is more severe than the first one of the class. -/
theorem rank_le_of_find? {issues : List Issue} {inClass : Issue → Bool} {first other : Issue}
    (ordered : issues.Pairwise NotAfter) (found : issues.find? inClass = some first)
    (member : other ∈ issues) (alike : inClass other = true) :
    other.severity.rank ≤ first.severity.rank := by
  obtain ⟨_, front, back, rfl, skipped⟩ := List.find?_eq_some_iff_append.mp found
  rcases List.mem_append.mp member with early | late
  · -- An issue of the class ahead of the first one would have been found.
    exact absurd alike (by simpa using skipped other early)
  · rcases List.mem_cons.mp late with rfl | behind
    · exact Nat.le_refl _
    · have ranged := (List.pairwise_append.mp ordered).2.1
      exact ((List.pairwise_cons.mp ranged).1 other behind).rank_le

/-- A report without repetitions lists issues of the sorted report in their order. At every place
where there are issues it holds exactly one, as severe as the most severe of them, and there is
nothing left to drop. -/
theorem deduplicated_sorted_mostSevere (issues : List Issue) :
    (deduplicated (sorted issues)).Sublist (sorted issues) ∧
    (∀ issue ∈ issues, ∃ kept,
      (deduplicated (sorted issues)).filter (·.place = issue.place) = [kept] ∧
      ∀ other ∈ issues, other.place = issue.place →
        other.severity.rank ≤ kept.severity.rank) ∧
    deduplicated (deduplicated (sorted issues)) = deduplicated (sorted issues) := by
  refine ⟨deduplicated_sublist _, fun issue member => ?_, deduplicated_deduplicated _⟩
  have listed : issue ∈ sorted issues := (sorted_perm issues).mem_iff.mpr member
  obtain ⟨kept, found⟩ : ∃ kept, (sorted issues).find? (·.place = issue.place) = some kept :=
    Option.isSome_iff_exists.mp (List.find?_isSome.mpr ⟨issue, listed, by simp⟩)
  refine ⟨kept, by rw [filter_deduplicated, found]; rfl, fun other present same => ?_⟩
  exact rank_le_of_find? (sorted_notAfter issues) found
    ((sorted_perm issues).mem_iff.mpr present) (by simpa using same)

/-- A finding of one rule at one place, with any severity. -/
def repeatedFinding (severity : Severity) : Issue where
  ruleId := "QA001"
  severity := severity
  category := "Safety"
  title := "Type narrowed"
  file := "A.st"
  line := 3

theorem deduplicated_sorted_repeatedFinding :
    let issues := [repeatedFinding .warning, repeatedFinding .critical, repeatedFinding .info]
    ∃ kept, (deduplicated (sorted issues)).filter
        (·.place = (repeatedFinding .warning).place) = [kept] ∧
      kept.severity = .critical := by
  intro issues
  obtain ⟨_, places, _⟩ := deduplicated_sorted_mostSevere issues
  obtain ⟨kept, only, most⟩ := places (repeatedFinding .warning) (by decide)
  have severe : Severity.critical.rank ≤ kept.severity.rank :=
    most (repeatedFinding .critical) (by decide) rfl
  refine ⟨kept, only, ?_⟩
  cases level : kept.severity with
  | critical => rfl
  | _ => simp [level, Severity.rank] at severe

end PlcAudit.Issue
