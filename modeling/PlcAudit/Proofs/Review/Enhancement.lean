import Mathlib.Tactic.Common
import PlcAudit.Review.Enhancement

/-!
Enhanced issues. Every issue of a batch gets one entry in its place, made from the issue, from what
is known about its file, and from the other issues of the batch as a collection: how many are
similar to it, and which ones one rule found in one file. The order of a batch shows in the order of
the related issues only.
-/

namespace PlcAudit

/-! Similar issues -/

/-- What similar issues have in common. -/
def Confidence.Similarity.key (similarity : Confidence.Similarity) (issue : Issue) :
    String × Option String :=
  match similarity with
  | .ruleId => (issue.ruleId, none)
  | .ruleAndCategory => (issue.ruleId, some issue.category)

theorem Confidence.Similarity.agrees_iff {similarity : Confidence.Similarity} {left right : Issue} :
    similarity.agrees left right = true ↔ similarity.key right = similarity.key left := by
  have swapped : left.ruleId = right.ruleId ↔ right.ruleId = left.ruleId := eq_comm
  have alike : left.category = right.category ↔ right.category = left.category := eq_comm
  cases similarity with
  | ruleId => simp [agrees, key, swapped]
  | ruleAndCategory => simp [agrees, key, swapped, alike]

namespace Review

open Confidence

namespace Enhancer

/-! Entries -/

/-- The evidence for an issue, with the number of issues of the batch that are similar to it. -/
def evidence (enhancer : Enhancer) (issues : List Issue) (trees : List Code.Tree) (issue : Issue) :
    Signals :=
  let counted := { signals issue with
    similarOccurrences :=
      issues.countP fun other => enhancer.similarity.key other = enhancer.similarity.key issue }
  match treeOf? trees issue.file with
  | some tree => counted.withTree tree
  | none => counted

/-- The suppressions of a file, or those of the configuration alone if its text is not known. -/
def marks (enhancer : Enhancer) (sources : List (String × String)) (file : String) :
    Suppressions :=
  match sources.find? fun source => source.1 == file with
  | some source => (Suppressions.ofSource source.2).withDisabled enhancer.disabledRules
  | none => ({} : Suppressions).withDisabled enhancer.disabledRules

/-- The other issues that the same rule found in the same file. -/
def relatives (issues : List Issue) (issue : Issue) : List Issue :=
  issues.filter fun other =>
    other.ruleId = issue.ruleId ∧ other.file = issue.file ∧ other.stableId ≠ issue.stableId

/-- The entry for an issue of a batch. -/
def entryFor (enhancer : Enhancer) (issues : List Issue) (sources : List (String × String))
    (trees : List Code.Tree) (issue : Issue) : Enhanced :=
  let result := calculate (some (enhancer.evidence issues trees issue)) (some issue)
  { issue
    id := issue.stableId
    confidence := result.level
    score := result.score
    reasons := result.reasons
    analysisLevel := .ast
    suppression := (enhancer.marks sources issue.file).check issue.ruleId issue.line
    related := (relatives issues issue).map Issue.stableId
    riskScore := Enhanced.risk issue.severity result.score }

section

variable (enhancer : Enhancer) (issues : List Issue) (sources : List (String × String))
  (trees : List Code.Tree)

theorem suppressionsFor_eq (file : String) :
    enhancer.suppressionsFor sources file = enhancer.marks sources file := by
  unfold suppressionsFor marks
  cases sources.find? fun source => source.1 == file <;> rfl

theorem evidence_eq (issue : Issue) :
    ((treeOf? trees issue.file).map
      { signals issue with
        similarOccurrences := issues.countP (enhancer.similarity.agrees issue) }.withTree).getD
      { signals issue with
        similarOccurrences := issues.countP (enhancer.similarity.agrees issue) } =
      enhancer.evidence issues trees issue := by
  have similar : issues.countP (enhancer.similarity.agrees issue) =
      issues.countP fun other => enhancer.similarity.key other = enhancer.similarity.key issue :=
    List.countP_congr fun other _ => by simp [Similarity.agrees_iff]
  unfold evidence
  rw [similar]
  cases treeOf? trees issue.file <;> rfl

theorem enhanceOne_eq (issue : Issue) :
    { enhancer.enhanceOne sources trees issue
        (issues.countP (enhancer.similarity.agrees issue)) with
      related := (relatives issues issue).map Issue.stableId } =
      enhancer.entryFor issues sources trees issue := by
  rw [enhanceOne]
  simp only [evidence_eq, suppressionsFor_eq]
  rfl

theorem linked_related (one : Issue → Enhanced) (same : ∀ issue, (one issue).issue = issue)
    (named : ∀ issue, (one issue).id = issue.stableId) (issue : Issue) :
    (((issues.map one).filter (sameGroup (one issue))).map (·.id)).filter (· != (one issue).id) =
      (relatives issues issue).map Issue.stableId := by
  have group : ∀ other, sameGroup (one issue) (one other) =
      decide (other.ruleId = issue.ruleId ∧ other.file = issue.file) := by
    intro other
    rw [Bool.eq_iff_iff]
    simp only [sameGroup, same, Bool.and_eq_true, beq_iff_eq, decide_eq_true_eq]
    exact and_congr eq_comm eq_comm
  have ids : (fun enhanced : Enhanced => enhanced.id) ∘ one = Issue.stableId := funext named
  rw [List.filter_map, List.filter_filter, List.filter_map, List.map_map, ids, relatives]
  congr 1
  refine List.filter_congr fun other _ => ?_
  rw [Bool.eq_iff_iff]
  simp [group, named, and_comm, and_assoc]

/-- Each issue of a batch gets its entry, in its place. -/
theorem enhance_eq :
    enhancer.enhance issues sources trees =
      issues.map (enhancer.entryFor issues sources trees) := by
  let one := fun issue =>
    enhancer.enhanceOne sources trees issue (issues.countP (enhancer.similarity.agrees issue))
  have scored : (issues.zip (enhancer.similarity.counts issues)).map (fun entry =>
      enhancer.enhanceOne sources trees entry.1 entry.2) = issues.map one := by
    simp [Similarity.counts, List.zip, List.zipWith_map_right, one]
  refine (congrArg linked scored).trans ?_
  rw [linked, List.map_map]
  refine List.map_congr_left fun issue _ => ?_
  rw [Function.comp_apply, linked_related issues one (fun _ => rfl) (fun _ => rfl)]
  exact enhanceOne_eq enhancer issues sources trees issue

/-- The relatives of an entry's issue are those entries of the batch. -/
theorem related_entryFor (issue : Issue) :
    (enhancer.entryFor issues sources trees issue).related =
      ((issues.map (enhancer.entryFor issues sources trees)).filter fun other =>
        other.issue.ruleId = issue.ruleId ∧ other.issue.file = issue.file ∧
          other.id ≠ issue.stableId).map (·.id) := by
  rw [List.filter_map, List.map_map]
  rfl

theorem mem_related_iff {issue other : Issue} (member : other ∈ issues)
    (rule : other.ruleId = issue.ruleId) (file : other.file = issue.file) :
    other.stableId ∈ (enhancer.entryFor issues sources trees issue).related ↔
      other.stableId ≠ issue.stableId := by
  constructor
  · intro related
    obtain ⟨_, found, same⟩ := List.mem_map.mp related
    have apart := (List.mem_filter.mp found).2
    simp only [decide_eq_true_eq] at apart
    exact same ▸ apart.2.2
  · intro apart
    refine List.mem_map_of_mem (List.mem_filter.mpr ⟨member, ?_⟩)
    simpa using ⟨rule, file, apart⟩

/-- An entry depends on its batch as a collection, up to the order of the related issues. -/
theorem entryFor_perm {others : List Issue} (permuted : issues.Perm others) (issue : Issue) :
    (enhancer.entryFor issues sources trees issue).related.Perm
        (enhancer.entryFor others sources trees issue).related ∧
      { enhancer.entryFor issues sources trees issue with
        related := (enhancer.entryFor others sources trees issue).related } =
        enhancer.entryFor others sources trees issue := by
  have similar : enhancer.evidence issues trees issue = enhancer.evidence others trees issue := by
    unfold evidence
    rw [permuted.countP_eq]
  constructor
  · exact (permuted.filter _).map _
  · simp only [entryFor, similar]

end

/-- Enhancing a batch gives one entry for each issue, in order and with the issue as it was. Score,
suppression and related issues of an entry are those that the issue, its file and the batch call
for; of two entries that one rule found in one file each is related to the other or neither is; and
another order of the batch gives the same entries up to the order of their related issues. -/
theorem enhance_entries (enhancer : Enhancer) (issues : List Issue)
    (sources : List (String × String)) (trees : List Code.Tree) :
    (enhancer.enhance issues sources trees).map (·.issue) = issues ∧
    (∀ entry ∈ enhancer.enhance issues sources trees,
      entry.id = entry.issue.stableId ∧
      entry.score = (calculate (some (enhancer.evidence issues trees entry.issue))
        (some entry.issue)).score ∧
      entry.suppression = (enhancer.marks sources entry.issue.file).check entry.issue.ruleId
        entry.issue.line ∧
      entry.related = ((enhancer.enhance issues sources trees).filter fun other =>
        other.issue.ruleId = entry.issue.ruleId ∧ other.issue.file = entry.issue.file ∧
          other.id ≠ entry.id).map (·.id)) ∧
    (∀ left ∈ enhancer.enhance issues sources trees,
      ∀ right ∈ enhancer.enhance issues sources trees,
        left.issue.ruleId = right.issue.ruleId → left.issue.file = right.issue.file →
          (right.id ∈ left.related ↔ left.id ∈ right.related)) ∧
    ∀ others, issues.Perm others →
      ∀ left ∈ enhancer.enhance issues sources trees,
        ∀ right ∈ enhancer.enhance others sources trees, left.issue = right.issue →
          left.related.Perm right.related ∧ { left with related := right.related } = right := by
  simp only [enhance_eq, List.forall_mem_map]
  refine ⟨?_, fun issue _ => ⟨rfl, rfl, rfl, ?_⟩, ?_, ?_⟩
  · rw [List.map_map]
    exact List.map_id issues
  · exact related_entryFor enhancer issues sources trees issue
  · intro left leftMember right rightMember rule file
    exact (mem_related_iff enhancer issues sources trees rightMember rule.symm file.symm).trans
      (ne_comm.trans (mem_related_iff enhancer issues sources trees leftMember rule file).symm)
  · intro others permuted left _ right _ same
    obtain rfl : left = right := same
    exact entryFor_perm enhancer issues sources trees permuted left

/-- Two issues that one rule found in one file, in both orders. -/
theorem enhance_entries_swapped :
    let issue : Issue :=
      { ruleId := "QA001", severity := .warning, category := "Safety", title := "x"
        file := "A.st" }
    let other : Issue := { issue with line := 7 }
    let entry := ({} : Enhancer).entryFor [issue, other] [] [] issue
    let second := ({} : Enhancer).entryFor [issue, other] [] [] other
    let swapped := ({} : Enhancer).entryFor [other, issue] [] [] issue
    entry ∈ ({} : Enhancer).enhance [issue, other] [] [] ∧
    second ∈ ({} : Enhancer).enhance [issue, other] [] [] ∧
    swapped ∈ ({} : Enhancer).enhance [other, issue] [] [] ∧
    (second.id ∈ entry.related ↔ entry.id ∈ second.related) ∧
    entry.related.Perm swapped.related ∧ { entry with related := swapped.related } = swapped := by
  intro issue other entry second swapped
  have first : entry ∈ ({} : Enhancer).enhance [issue, other] [] [] := by
    rw [enhance_eq]
    exact List.mem_cons_self
  have next : second ∈ ({} : Enhancer).enhance [issue, other] [] [] := by
    rw [enhance_eq]
    exact List.mem_cons_of_mem _ List.mem_cons_self
  have last : swapped ∈ ({} : Enhancer).enhance [other, issue] [] [] := by
    rw [enhance_eq]
    exact List.mem_cons_of_mem _ List.mem_cons_self
  obtain ⟨_, _, symmetric, permuted⟩ := enhance_entries {} [issue, other] [] []
  exact ⟨first, next, last, symmetric entry first second next rfl rfl,
    permuted [other, issue] (List.Perm.swap other issue []) entry first swapped last rfl⟩

end Enhancer

end Review

end PlcAudit
