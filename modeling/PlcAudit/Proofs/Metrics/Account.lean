import Mathlib.Algebra.BigOperators.Group.List.Lemmas
import Mathlib.Algebra.GroupWithZero.Nat
import Mathlib.Data.List.DropRight
import PlcAudit.Metrics
import PlcAudit.Proofs.Data.Order
import PlcAudit.Proofs.Data.Table

/-!
The counters as an account of what was recorded. After any operations, every counter is the sum over
the operations since the last reset, the tables split the counters by rule and severity without
loss, and of the durations of an operation the latest are kept.
-/

namespace PlcAudit.Metrics

open Review

/-- What can be done with the counters. -/
inductive Operation where
  | run (report : RunReport)
  | time (operation : String) (duration : Nat)
  | file
  | failure
  | reset

namespace Operation

def isReset : Operation → Bool
  | .reset => true
  | _ => false

def isFile : Operation → Bool
  | .file => true
  | _ => false

def isFailure : Operation → Bool
  | .failure => true
  | _ => false

def report? : Operation → Option RunReport
  | .run report => some report
  | _ => none

/-- The duration that is recorded for a named operation. A run is timed as the rule engine. -/
def durationOf? (name : String) : Operation → Option Nat
  | .run report => if name = "rule_engine" then some (runDuration report) else none
  | .time operation duration => if name = operation then some duration else none
  | _ => none

end Operation

def apply (metrics : Metrics) : Operation → Metrics
  | .run report => metrics.recordRun report
  | .time operation duration => metrics.recordDuration operation duration
  | .file => metrics.recordFile
  | .failure => metrics.recordFailure
  | .reset => metrics.reset

/-- The counters after operations one by one. -/
def ofHistory (history : List Operation) : Metrics := history.foldl apply {}

/-- The operations behind the last reset. -/
def sinceReset (history : List Operation) : List Operation :=
  history.rtakeWhile fun operation => !operation.isReset

def runsIn (history : List Operation) : List RunReport := history.filterMap Operation.report?

def issuesIn (history : List Operation) : List Issue := (runsIn history).flatMap (·.issues)

/-- The durations that were recorded for a named operation, in order. -/
def durationsIn (name : String) (history : List Operation) : List Nat :=
  history.filterMap (Operation.durationOf? name)

/-! Tables of counts -/

/-- A table says how often each key occurs, and has no other keys. -/
def Counts (table : Table String Nat) (occurrences : List String) : Prop :=
  ∀ key, table.find? key =
    if key ∈ occurrences then some (occurrences.count key) else none

namespace Counts

variable {table : Table String Nat} {occurrences : List String}

theorem empty : Counts .empty [] := fun _ => rfl

theorem bump (counts : Counts table occurrences) (key : String) :
    Counts (Metrics.bump table key) (occurrences ++ [key]) := by
  intro other
  rw [Metrics.bump]
  by_cases same : other = key
  · subst other
    rw [Table.find?_alter_self, counts key]
    split
    · simp
    · rename_i absent
      simp [List.count_eq_zero_of_not_mem absent]
  · rw [Table.find?_alter_of_ne _ same, counts other]
    simp [same, Ne.symm same]

/-- Items are counted one by one under their keys. -/
theorem bumpAll {α : Type} (counts : Counts table occurrences) (keyOf : α → String)
    (items : List α) :
    Counts (items.foldl (fun counts item => Metrics.bump counts (keyOf item)) table)
      (occurrences ++ items.map keyOf) := by
  induction items generalizing table occurrences with
  | nil => simpa using counts
  | cons item rest ih => simpa using ih (counts.bump (keyOf item))

/-- The counts add up to the number of occurrences. -/
theorem sum_values (counts : Counts table occurrences) :
    table.values.sum = occurrences.length := by
  have values : table.values = table.keys.map (occurrences.count ·) := by
    rw [Table.values, Table.keys, List.map_map]
    apply List.map_congr_left
    rintro ⟨key, count⟩ present
    have found := (counts key).symm.trans (Table.find?_of_mem_entries present)
    split at found
    · exact (Option.some.inj found).symm
    · cases found
  have keys : table.keys.Perm occurrences.dedup := by
    apply (List.perm_ext_iff_of_nodup table.keys_nodup occurrences.nodup_dedup).mpr
    intro key
    rw [← Table.contains_iff_mem_keys, Table.contains, counts key, List.mem_dedup]
    split <;> simp_all
  rw [values, (keys.map _).sum_eq, List.sum_map_count_dedup_eq_length]

end Counts

/-! What one operation adds -/

/-- The counters that runs move are those of the given runs. -/
structure Tallies (metrics : Metrics) (runs : List RunReport) : Prop where
  ruleRuns : metrics.ruleRuns = runs.length
  rulesExecuted : metrics.rulesExecuted = (runs.map (·.rulesRun)).sum
  changesExamined : metrics.changesExamined = (runs.map (·.changesExamined)).sum
  checkFailures : metrics.checkFailures = (runs.map (·.failures.length)).sum
  failuresByRule : Counts metrics.failuresByRule ((runs.flatMap (·.failures)).map (·.ruleId))
  issuesBySeverity :
    Counts metrics.issuesBySeverity ((runs.flatMap (·.issues)).map (·.severity.name))
  issuesByRule : Counts metrics.issuesByRule ((runs.flatMap (·.issues)).map (·.ruleId))

theorem Tallies.snoc {metrics : Metrics} {runs : List RunReport} (known : metrics.Tallies runs)
    (report : RunReport) : (metrics.recordRun report).Tallies (runs ++ [report]) where
  ruleRuns := by simp [recordRun, recordDuration, known.ruleRuns]
  rulesExecuted := by simp [recordRun, recordDuration, known.rulesExecuted]
  changesExamined := by simp [recordRun, recordDuration, known.changesExamined]
  checkFailures := by simp [recordRun, recordDuration, known.checkFailures]
  failuresByRule := by
    simpa using! known.failuresByRule.bumpAll (·.ruleId) report.failures
  issuesBySeverity := by
    simpa using! known.issuesBySeverity.bumpAll (·.severity.name) report.issues
  issuesByRule := by
    simpa using! known.issuesByRule.bumpAll (·.ruleId) report.issues

/-- Of what was recorded, the latest samples; nothing where nothing was recorded. -/
def latest (recorded : List Nat) : Option (List Nat) :=
  if recorded = [] then none else some (recorded.drop (recorded.length - maxSamples))

/-- The counters are those of the operations of a history without a reset. -/
structure Records (metrics : Metrics) (history : List Operation) : Prop where
  runs : metrics.Tallies (runsIn history)
  filesAnalyzed : metrics.filesAnalyzed = history.countP (·.isFile)
  analysesFailed : metrics.analysesFailed = history.countP (·.isFailure)
  durations : ∀ name, metrics.durations.find? name = latest (durationsIn name history)

theorem runsIn_snoc (history : List Operation) (operation : Operation) :
    runsIn (history ++ [operation]) = runsIn history ++ operation.report?.toList := by
  cases found : operation.report? <;> simp [runsIn, found]

theorem durationsIn_snoc (name : String) (history : List Operation) (operation : Operation) :
    durationsIn name (history ++ [operation]) =
      durationsIn name history ++ (operation.durationOf? name).toList := by
  cases found : operation.durationOf? name <;> simp [durationsIn, found]

/-- A new sample pushes the oldest out once the window is full. -/
theorem drop_snoc {window : Nat} (room : 0 < window) (recorded : List Nat) (duration : Nat) :
    let kept := recorded.drop (recorded.length - window)
    kept.drop (kept.length + 1 - window) ++ [duration] =
      (recorded ++ [duration]).drop ((recorded ++ [duration]).length - window) := by
  intro kept
  have length : kept.length = recorded.length - (recorded.length - window) := List.length_drop
  have within : recorded.length + 1 - window ≤ recorded.length := by omega
  have moved : recorded.length - window + (kept.length + 1 - window) =
      recorded.length + 1 - window := by omega
  rw [List.drop_drop, moved, List.length_append, List.length_singleton,
    List.drop_append_of_le_length within]

theorem getD_latest (recorded : List Nat) :
    (latest recorded).getD [] = recorded.drop (recorded.length - maxSamples) := by
  by_cases nothing : recorded = [] <;> simp [latest, nothing]

namespace Records

variable {metrics : Metrics} {history : List Operation}

theorem start : Records {} [] where
  runs := ⟨rfl, rfl, rfl, rfl, .empty, .empty, .empty⟩
  filesAnalyzed := rfl
  analysesFailed := rfl
  durations := fun _ => rfl

/-- The samples of every operation after one more of one of them. -/
theorem sampled (known : metrics.Records history) (operation : String) (duration : Nat)
    (name : String) :
    (metrics.recordDuration operation duration).durations.find? name =
      latest (durationsIn name history ++ if name = operation then [duration] else []) := by
  by_cases same : name = operation
  · subst name
    rw [if_pos rfl, latest, if_neg (by simp), ← drop_snoc (by decide)]
    simp only [recordDuration, Table.find?_alter_self, known.durations, getD_latest]
  · rw [if_neg same, List.append_nil, ← known.durations, recordDuration,
      Table.find?_alter_of_ne _ same]

theorem run (known : metrics.Records history) (report : RunReport) :
    (metrics.recordRun report).Records (history ++ [.run report]) where
  runs := by
    rw [runsIn_snoc]
    exact known.runs.snoc report
  filesAnalyzed := by
    simpa [recordRun, recordDuration, Operation.isFile] using known.filesAnalyzed
  analysesFailed := by
    simpa [recordRun, recordDuration, Operation.isFailure] using known.analysesFailed
  durations := by
    intro name
    rw [durationsIn_snoc, Operation.durationOf?, apply_ite Option.toList]
    exact known.sampled "rule_engine" (runDuration report) name

/-- An operation that is no run leaves the counters of runs alone. -/
theorem runs_snoc (known : metrics.Records history) (operation : Operation)
    (plain : operation.report? = none) : metrics.Tallies (runsIn (history ++ [operation])) := by
  rw [runsIn_snoc, plain, Option.toList_none, List.append_nil]
  exact known.runs

theorem durations_snoc (known : metrics.Records history) (operation : Operation)
    (untimed : ∀ name, operation.durationOf? name = none) (name : String) :
    metrics.durations.find? name = latest (durationsIn name (history ++ [operation])) := by
  rw [durationsIn_snoc, untimed, Option.toList_none, List.append_nil]
  exact known.durations name

theorem time (known : metrics.Records history) (operation : String) (duration : Nat) :
    (metrics.recordDuration operation duration).Records
      (history ++ [.time operation duration]) where
  runs := { known.runs_snoc (.time operation duration) rfl with }
  filesAnalyzed := by simpa [recordDuration, Operation.isFile] using known.filesAnalyzed
  analysesFailed := by simpa [recordDuration, Operation.isFailure] using known.analysesFailed
  durations := by
    intro name
    rw [durationsIn_snoc, Operation.durationOf?, apply_ite Option.toList]
    exact known.sampled operation duration name

theorem file (known : metrics.Records history) :
    metrics.recordFile.Records (history ++ [.file]) where
  runs := { known.runs_snoc .file rfl with }
  filesAnalyzed := by simpa [recordFile, Operation.isFile] using known.filesAnalyzed
  analysesFailed := by simpa [recordFile, Operation.isFailure] using known.analysesFailed
  durations := known.durations_snoc .file fun _ => rfl

theorem failure (known : metrics.Records history) :
    metrics.recordFailure.Records (history ++ [.failure]) where
  runs := { known.runs_snoc .failure rfl with }
  filesAnalyzed := by simpa [recordFailure, Operation.isFile] using known.filesAnalyzed
  analysesFailed := by simpa [recordFailure, Operation.isFailure] using known.analysesFailed
  durations := known.durations_snoc .failure fun _ => rfl

/-- Every operation keeps the account, and a reset starts a new one. -/
theorem apply (known : metrics.Records (sinceReset history)) (operation : Operation) :
    (metrics.apply operation).Records (sinceReset (history ++ [operation])) := by
  rw [sinceReset, List.rtakeWhile_concat]
  cases operation with
  | run report => exact known.run report
  | time operation duration => exact known.time operation duration
  | file => exact known.file
  | failure => exact known.failure
  | reset => exact .start

end Records

theorem records_ofHistory (history : List Operation) :
    (ofHistory history).Records (sinceReset history) := by
  induction history using List.reverseRecOn with
  | nil => exact .start
  | append_singleton earlier operation ih =>
    rw [ofHistory, List.foldl_append]
    exact ih.apply operation

/-! The rules with the most issues -/

/-- More issues come first, and of rules with as many, the one that is first in the alphabet. -/
def RanksBefore (left right : String × Nat) : Prop :=
  right.2 < left.2 ∨ right.2 = left.2 ∧ left.1 < right.1

/-- The counts of all rules, sorted by number. -/
def ranking (counts : Table String Nat) : List (String × Nat) :=
  counts.entries.mergeSort fun left right => right.2 ≤ left.2

private theorem fewer_trans (first second third : String × Nat)
    (front : decide (second.2 ≤ first.2) = true) (back : decide (third.2 ≤ second.2) = true) :
    decide (third.2 ≤ first.2) = true := by
  simp only [decide_eq_true_eq] at front back ⊢
  omega

private theorem fewer_total (first second : String × Nat) :
    (decide (second.2 ≤ first.2) || decide (first.2 ≤ second.2)) = true := by
  simp only [Bool.or_eq_true, decide_eq_true_eq]
  omega

/-- Rules with as many issues keep the alphabetical order of the table. -/
theorem ranking_ordered (counts : Table String Nat) :
    (ranking counts).Pairwise RanksBefore := by
  have sorted : (ranking counts).Pairwise fun left right => decide (right.2 ≤ left.2) = true :=
    List.pairwise_mergeSort fewer_trans fewer_total counts.entries
  rw [List.pairwise_iff_forall_sublist] at sorted ⊢
  intro left right pair
  have fewer := of_decide_eq_true (sorted pair)
  rcases Nat.lt_or_eq_of_le fewer with below | same
  · exact .inl below
  · refine .inr ⟨same, ?_⟩
    have ties : (ranking counts).filter (fun entry => entry.2 = left.2) =
        counts.entries.filter fun entry => entry.2 = left.2 := by
      apply mergeSort_filter fewer_trans fewer_total
      intro first second isFirst isSecond
      simp only [decide_eq_true_eq] at isFirst isSecond ⊢
      omega
    have kept := pair.filter fun entry => entry.2 = left.2
    rw [ties] at kept
    have listed : [left, right].Sublist counts.entries := by
      simpa [same] using kept.trans List.filter_sublist
    have alphabetical := List.pairwise_iff_forall_sublist.mp counts.sorted listed
    exact compareOfLessAndEq_eq_lt.mp alphabetical

/-- The shares that are shown beside the counts do not matter for the order. -/
theorem topRules_eq (metrics : Metrics) :
    metrics.topRules.map (fun rule => (rule.ruleId, rule.count)) =
      (ranking metrics.issuesByRule).take 10 := by
  have unshared (frequencies : List RuleFrequency) :
      (frequencies.mergeSort fun left right => right.count ≤ left.count).map
          (fun rule => (rule.ruleId, rule.count)) =
        (frequencies.map fun rule => (rule.ruleId, rule.count)).mergeSort
          fun left right => right.2 ≤ left.2 :=
    List.map_mergeSort fun _ _ _ _ => rfl
  rw [topRules, List.map_take, unshared, List.map_map, ranking]
  congr 2
  exact List.map_id _

/-- The counters after any operations account for those since the last reset: every counter is its
sum, the counts by severity and by rule split all issues, those of failures all failures, the top
rules are the first ten by count and name, and the samples of an operation are the latest that were
recorded for it, at most a thousand. -/
theorem metrics_account (history : List Operation) :
    let metrics := ofHistory history
    let recent := sinceReset history
    metrics.Records recent ∧
      metrics.issuesBySeverity.values.sum = (issuesIn recent).length ∧
      metrics.issuesByRule.values.sum = (issuesIn recent).length ∧
      metrics.checkFailures = metrics.failuresByRule.values.sum ∧
      (∃ ranked : List (String × Nat), ranked.Perm metrics.issuesByRule.entries ∧
        ranked.Pairwise RanksBefore ∧
        metrics.topRules.map (fun rule => (rule.ruleId, rule.count)) = ranked.take 10) ∧
      ∀ name, let recorded := durationsIn name recent
        let kept := (metrics.durations.find? name).getD []
        kept <:+ recorded ∧ kept.length = min recorded.length 1000 := by
  intro metrics recent
  have records : metrics.Records recent := records_ofHistory history
  refine ⟨records, ?_, ?_, ?_, ?_, ?_⟩
  · rw [records.runs.issuesBySeverity.sum_values, List.length_map, issuesIn]
  · rw [records.runs.issuesByRule.sum_values, List.length_map, issuesIn]
  · rw [records.runs.failuresByRule.sum_values, records.runs.checkFailures, List.length_map,
      List.length_flatMap]
  · exact ⟨_, List.mergeSort_perm .., ranking_ordered _, topRules_eq metrics⟩
  · intro name recorded kept
    have latest : kept = recorded.drop (recorded.length - maxSamples) := by
      rw [← getD_latest, ← records.durations]
    refine ⟨latest ▸ List.drop_suffix .., ?_⟩
    rw [latest, List.length_drop, maxSamples]
    omega

end PlcAudit.Metrics
