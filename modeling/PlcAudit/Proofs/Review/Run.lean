import PlcAudit.Proofs.Data.Table
import PlcAudit.Proofs.Issue.Order
import PlcAudit.Review.Engine

/-!
A run of the review engine that skips failing checks. Its report holds what the enabled checkers
answer to every change, no more and no less. Running the checkers beside each other gives the same
report, and so does registering them in another order, as long as each reports under a name of its
own.
-/

namespace PlcAudit.Review

/-! What checkers answer -/

def Reply.issues : Reply → List Issue
  | .found issues => issues
  | _ => []

/-- The record of a check that fails. -/
def Reply.failure? (ruleId : String) (subject : Subject) : Reply → Option CheckFailure
  | .failed message => some ⟨ruleId, subject, message.getD "checker panicked"⟩
  | _ => none

namespace Checker

/-- What a checker finds in a change set: in its variables, its logic, its data types, and in the
whole set if that is not empty. -/
def findings (checker : Checker) (changes : ChangeSet) : List Issue :=
  changes.declarations.flatMap (fun change => (checker.onVariable change).issues) ++
  changes.logic.flatMap (fun change => (checker.onLogic change).issues) ++
  changes.types.flatMap (fun change => (checker.onType change).issues) ++
  if changes.size = 0 then [] else (checker.onSet changes).issues

/-- The checks that fail, in the same order. -/
def failures (checker : Checker) (changes : ChangeSet) : List CheckFailure :=
  changes.declarations.filterMap
    (fun change => (checker.onVariable change).failure? checker.id .variable) ++
  changes.logic.filterMap (fun change => (checker.onLogic change).failure? checker.id .logic) ++
  changes.types.filterMap (fun change => (checker.onType change).failure? checker.id .dataType) ++
  if changes.size = 0 then []
  else ((checker.onSet changes).failure? checker.id .changeSet).toList

/-- No check of the change set cancels a run: each finds issues or fails. -/
def Steady (checker : Checker) (changes : ChangeSet) : Prop :=
  ∀ answer ∈ checker.replies changes, ∀ token, answer.2 ≠ .cancels token

def tally (checker : Checker) (changes : ChangeSet) : Tally :=
  ⟨checker.findings changes, checker.failures changes⟩

theorem replies_issues (checker : Checker) (changes : ChangeSet) :
    (checker.replies changes).flatMap (·.2.issues) = checker.findings changes := by
  simp only [replies, findings, ChangeSet.isEmpty, List.flatMap_append, List.flatMap_map,
    beq_iff_eq]
  split <;> simp

theorem replies_failures (checker : Checker) (changes : ChangeSet) :
    (checker.replies changes).filterMap (fun answer => answer.2.failure? checker.id answer.1) =
      checker.failures changes := by
  simp only [replies, failures, ChangeSet.isEmpty, List.filterMap_append, List.filterMap_map,
    beq_iff_eq, Function.comp_def]
  split
  · simp
  · cases failed : (checker.onSet changes).failure? checker.id .changeSet <;> simp [failed]

end Checker

/-- Where failing checks are skipped, the replies of a checker are added up. -/
theorem tallyReplies_skip {replies : List (Subject × Reply)}
    (steady : ∀ answer ∈ replies, ∀ token, answer.2 ≠ .cancels token) (ruleId : String)
    (cancelled : List Nat) :
    tallyReplies .skipAndContinue ruleId replies cancelled =
      (.ok ⟨replies.flatMap (·.2.issues),
        replies.filterMap fun answer => answer.2.failure? ruleId answer.1⟩, cancelled) := by
  induction replies with
  | nil => rfl
  | cons answer rest ih =>
    obtain ⟨subject, reply⟩ := answer
    obtain ⟨first, later⟩ := List.forall_mem_cons.mp steady
    cases reply with
    | found issues =>
      simp [tallyReplies, ih later, Except.map, Tally.append, Reply.issues, Reply.failure?]
    | failed message =>
      simp [tallyReplies, ih later, Except.map, Tally.append, Reply.issues, Reply.failure?,
        unexplained]
    | cancels token => exact absurd rfl (first token)

theorem Checker.Steady.tallied {checker : Checker} {changes : ChangeSet}
    (steady : checker.Steady changes) (cancelled : List Nat) :
    tallyReplies .skipAndContinue checker.id (checker.replies changes) cancelled =
      (.ok (checker.tally changes), cancelled) := by
  rw [tallyReplies_skip steady, checker.replies_issues, checker.replies_failures, tally]

/-! Runs -/

theorem runCheckers_skip {changes : ChangeSet} {token : Option Nat} {cancelled : List Nat}
    {checkers : List Checker} (steady : ∀ checker ∈ checkers, checker.Steady changes)
    (live : ∀ held, token = some held → held ∉ cancelled) :
    runCheckers .skipAndContinue changes token checkers cancelled =
      (.ok (checkers.map (·.tally changes), false), cancelled) := by
  induction checkers with
  | nil => rfl
  | cons checker rest ih =>
    obtain ⟨first, later⟩ := List.forall_mem_cons.mp steady
    have running : token.any cancelled.contains = false := by
      cases token with
      | none => rfl
      | some held => simpa using live held rfl
    simp [runCheckers, running, first.tallied, ih later, Except.map]

theorem runSlots_skip {changes : ChangeSet} {finished : List (Checker × Nat)}
    (steady : ∀ entry ∈ finished, entry.1.Steady changes)
    (distinct : (finished.map Prod.snd).Nodup) (cancelled : List Nat) :
    ∃ slots, runSlots .skipAndContinue changes finished cancelled = (.ok slots, cancelled) ∧
      slots.entries.Perm (finished.map fun entry => (entry.2, entry.1.tally changes)) := by
  induction finished with
  | nil => exact ⟨.empty, rfl, .nil⟩
  | cons entry rest ih =>
    obtain ⟨checker, slot⟩ := entry
    obtain ⟨first, later⟩ := List.forall_mem_cons.mp steady
    obtain ⟨fresh, apart⟩ := List.nodup_cons.mp distinct
    obtain ⟨slots, ran, filled⟩ := ih later apart
    refine ⟨slots.insert slot (checker.tally changes), ?_, ?_⟩
    · simp [runSlots, first.tallied, ran, Except.map]
    · have taken : slots.keys.Perm (rest.map Prod.snd) := by
        simpa [Table.keys, Function.comp_def] using filled.map Prod.fst
      have free : slot ∉ slots.keys := fun member => fresh (taken.mem_iff.mp member)
      exact (Table.entries_insert_perm free _).trans (filled.cons _)

namespace Engine

variable {engine : Engine} {changes : ChangeSet}

/-- How a run ends that reports on all enabled checkers. -/
def completed (engine : Engine) (changes : ChangeSet) (cancelled : List Nat) : RunEnd :=
  let report := reportOf changes (engine.enabledCheckers.map (·.tally changes))
    engine.enabledCheckers.length
  { outcome := .ok report, metrics := engine.metrics.map (·.recordRun report), cancelled }

theorem run_skip {token : Option Nat} {cancelled : List Nat}
    (policy : engine.policy = .skipAndContinue)
    (steady : ∀ checker ∈ engine.enabledCheckers, checker.Steady changes)
    (live : ∀ held, token = some held → held ∉ cancelled) :
    engine.run changes token cancelled = engine.completed changes cancelled := by
  rw [run, policy, runCheckers_skip steady live]
  simp only [finish, List.length_map]
  rfl

/-- In whatever order the checkers finish, each has its tally in its own slot. -/
theorem runParallel_skip (policy : engine.policy = .skipAndContinue)
    (steady : ∀ checker ∈ engine.enabledCheckers, checker.Steady changes)
    (schedule : engine.Schedule) (cancelled : List Nat) :
    engine.runParallel schedule changes cancelled = engine.completed changes cancelled := by
  have present : ∀ entry ∈ schedule.finished, entry.1.Steady changes := by
    intro entry member
    exact steady _ (List.fst_mem_of_mem_zipIdx (schedule.complete.mem_iff.mp member))
  have numbered : (engine.enabledCheckers.zipIdx.map Prod.snd).Pairwise (· < ·) := by
    rw [List.zipIdx_map_snd]
    exact List.pairwise_lt_range'
  have distinct : (schedule.finished.map Prod.snd).Nodup :=
    (schedule.complete.map Prod.snd).nodup_iff.mpr (numbered.imp Nat.ne_of_lt)
  obtain ⟨slots, ran, filled⟩ := runSlots_skip present distinct cancelled
  have sorted : (engine.enabledCheckers.zipIdx.map fun entry =>
      (entry.2, entry.1.tally changes)).Pairwise
        fun earlier later => compare earlier.1 later.1 = .lt := by
    refine List.pairwise_map.mpr ((List.pairwise_map.mp numbered).imp fun below => ?_)
    exact Nat.compare_eq_lt.mpr below
  -- The slots are filled in another order, but a table has only one.
  have ordered := Table.entries_eq_of_perm sorted (filled.trans (schedule.complete.map _))
  have values : slots.values = engine.enabledCheckers.map (·.tally changes) := by
    have firsts := congrArg (List.map (·.tally changes))
      (List.zipIdx_map_fst 0 engine.enabledCheckers)
    rw [List.map_map] at firsts
    rw [Table.values, ordered, List.map_map]
    exact firsts
  rw [runParallel, policy, ran]
  simp only [finish, values]
  rfl

end Engine

/-! Reports -/

/-- A report holds exactly what checkers answer to a change set: their findings in the order of
reports, ties as they were found, and a record for each check that failed. -/
structure RunReport.Faithful (report : RunReport) (checkers : List Checker) (changes : ChangeSet) :
    Prop where
  complete : report.issues.Perm (checkers.flatMap (·.findings changes))
  sorted : report.issues.Pairwise Issue.NotAfter
  stable : ∀ issue : Issue, report.issues.filter (issue.Ties ·) =
    (checkers.flatMap (·.findings changes)).filter (issue.Ties ·)
  failures : report.failures = checkers.flatMap (·.failures changes)
  rulesRun : report.rulesRun = checkers.length

theorem reportOf_faithful (checkers : List Checker) (changes : ChangeSet) :
    (Engine.reportOf changes (checkers.map (·.tally changes)) checkers.length).Faithful checkers
      changes := by
  have found : (checkers.map (·.tally changes)).flatMap Tally.issues =
      checkers.flatMap (·.findings changes) := List.flatMap_map ..
  constructor
  · rw [← found]
    exact Issue.sorted_perm _
  · exact Issue.sorted_notAfter _
  · rw [← found]
    exact Issue.sorted_ties _
  · exact List.flatMap_map ..
  · rfl

/-- Parts of which at most one is not empty may be put together in any order. -/
private theorem flatMap_eq_of_perm {α β : Type} {parts : α → List β} {first second : List α}
    (same : first.Perm second)
    (apart : first.Pairwise fun left right => parts left = [] ∨ parts right = []) :
    first.flatMap parts = second.flatMap parts := by
  induction same with
  | nil => rfl
  | cons head _ ih =>
    rw [List.flatMap_cons, List.flatMap_cons, ih (List.pairwise_cons.mp apart).2]
  | swap left right rest =>
    have empty := (List.pairwise_cons.mp apart).1 left (List.mem_cons_self ..)
    rcases empty with empty | empty <;> simp [empty]
  | trans front back ihFront ihBack =>
    have apartBack := apart.perm front fun known => known.symm
    exact (ihFront apart).trans (ihBack apartBack)

/-- Each checker reports under its own id, and no two have the same id. -/
structure OwnIds (checkers : List Checker) (changes : ChangeSet) : Prop where
  distinct : (checkers.map Checker.id).Nodup
  own : ∀ checker ∈ checkers, ∀ issue ∈ checker.findings changes, issue.ruleId = checker.id

/-- Issues that tie come from one checker, so that the order of checkers does not show in them. -/
theorem OwnIds.ties_eq {checkers others : List Checker} {changes : ChangeSet}
    (ownIds : OwnIds checkers changes) (same : checkers.Perm others) (issue : Issue) :
    (checkers.flatMap (·.findings changes)).filter (issue.Ties ·) =
      (others.flatMap (·.findings changes)).filter (issue.Ties ·) := by
  have foreign : ∀ checker ∈ checkers, checker.id ≠ issue.ruleId →
      (checker.findings changes).filter (issue.Ties ·) = [] := by
    intro checker member different
    apply List.filter_eq_nil_iff.mpr
    intro found isFound ties
    have sameId : issue.ruleId = found.ruleId := (of_decide_eq_true ties).2.2.2
    exact different (sameId.trans (ownIds.own checker member found isFound)).symm
  rw [List.filter_flatMap, List.filter_flatMap]
  apply flatMap_eq_of_perm same
  refine (List.pairwise_map.mp ownIds.distinct).imp_of_mem
    fun {left right} isLeft isRight different => ?_
  by_cases leftOwn : left.id = issue.ruleId
  · exact .inr (foreign _ isRight fun rightOwn => different (leftOwn.trans rightOwn.symm))
  · exact .inl (foreign _ isLeft leftOwn)

/-- Reports on the same checkers in another order list the same issues. -/
theorem RunReport.Faithful.reordered {report other : RunReport} {checkers others : List Checker}
    {changes : ChangeSet} (faithful : report.Faithful checkers changes)
    (otherFaithful : other.Faithful others changes) (same : checkers.Perm others)
    (ownIds : OwnIds checkers changes) :
    other.issues = report.issues ∧ other.failures.Perm report.failures ∧
      other.rulesRun = report.rulesRun := by
  refine ⟨?_, ?_, ?_⟩
  · apply Issue.eq_of_ties otherFaithful.sorted faithful.sorted
    intro issue
    rw [otherFaithful.stable, faithful.stable, ownIds.ties_eq same]
  · rw [otherFaithful.failures, faithful.failures]
    exact same.symm.flatMap_right _
  · rw [otherFaithful.rulesRun, faithful.rulesRun, same.length_eq]

/-- A run that skips failing checks and that nothing cancels gives a faithful report on the enabled
checkers, which the counters record. Running them beside each other gives the same issues, failures
and count, whichever finishes first; registering them in another order gives the same issues if each
has an id of its own. -/
theorem Engine.run_faithful {engine : Engine} {changes : ChangeSet} (token : Option Nat)
    (cancelled : List Nat) (policy : engine.policy = .skipAndContinue)
    (steady : ∀ checker ∈ engine.enabledCheckers, checker.Steady changes)
    (live : ∀ held, token = some held → held ∉ cancelled) :
    ∃ report, engine.run changes token cancelled =
        { outcome := .ok report, metrics := engine.metrics.map (·.recordRun report), cancelled } ∧
      report.cancelled = false ∧ report.Faithful engine.enabledCheckers changes ∧
      (∀ schedule, ∃ parallel, engine.runParallel schedule changes cancelled =
          { outcome := .ok parallel, metrics := engine.metrics.map (·.recordRun parallel)
            cancelled } ∧
        parallel.issues = report.issues ∧ parallel.failures = report.failures ∧
        parallel.rulesRun = report.rulesRun) ∧
      (OwnIds engine.enabledCheckers changes → ∀ checkers, checkers.Perm engine.checkers →
        ∃ other, { engine with checkers }.run changes token cancelled =
            { outcome := .ok other, metrics := engine.metrics.map (·.recordRun other), cancelled } ∧
          other.issues = report.issues ∧ other.failures.Perm report.failures ∧
          other.rulesRun = report.rulesRun) := by
  have faithful := reportOf_faithful engine.enabledCheckers changes
  refine ⟨_, run_skip policy steady live, rfl, faithful, fun schedule => ?_,
    fun ownIds checkers same => ?_⟩
  · exact ⟨_, runParallel_skip policy steady schedule cancelled, rfl, rfl, rfl⟩
  · have enabled : ({ engine with checkers } : Engine).enabledCheckers.Perm
        engine.enabledCheckers := same.filter _
    have reordered : ∀ checker ∈ ({ engine with checkers } : Engine).enabledCheckers,
        checker.Steady changes := fun checker member => steady checker (enabled.mem_iff.mp member)
    exact ⟨_, run_skip policy reordered live,
      faithful.reordered (reportOf_faithful _ changes) enabled.symm ownIds⟩

/-- Warns of every variable and fails on logic. -/
def fragileChecker : Checker where
  id := "T1"
  name := "fragile"
  description := "warns of every variable"
  severity := .warning
  onVariable := fun change => .found [{
    ruleId := "T1", severity := .warning, category := "Test", title := change.name
    file := change.file, line := change.line }]
  onLogic := fun _ => .failed (some "boom")

/-- Finds one critical issue in every change set. -/
def strictChecker : Checker where
  id := "T2"
  name := "strict"
  description := "objects to every change set"
  severity := .critical
  onSet := fun _ => .found [{
    ruleId := "T2", severity := .critical, category := "Test", title := "set" }]

def mixedEngine : Engine where
  checkers := [fragileChecker, strictChecker, { fragileChecker with id := "t3" }]
  disabled := ["T3"]

def mixedChanges : ChangeSet where
  declarations := [{ name := "a", file := "main.st", line := 1 }]
  logic := [{ name := "MAIN", file := "main.st", firstLine := 2, lastLine := 2 }]

theorem mixedEngine_enabled : mixedEngine.enabledCheckers = [fragileChecker, strictChecker] := rfl

theorem Engine.run_faithful_mixedEngine : ∃ report,
    mixedEngine.run mixedChanges none [] =
        { outcome := .ok report, metrics := none, cancelled := [] } ∧
      report.Faithful [fragileChecker, strictChecker] mixedChanges ∧
      ∃ other,
        { mixedEngine with checkers := mixedEngine.checkers.reverse }.run mixedChanges none [] =
          { outcome := .ok other, metrics := none, cancelled := [] } ∧
        other.issues = report.issues := by
  have steady : ∀ checker ∈ mixedEngine.enabledCheckers, checker.Steady mixedChanges := by
    simp [mixedEngine_enabled, Checker.Steady, Checker.replies, fragileChecker, strictChecker,
      mixedChanges, ChangeSet.isEmpty, ChangeSet.size]
  have ownIds : OwnIds mixedEngine.enabledCheckers mixedChanges := by
    refine ⟨by decide, ?_⟩
    simp [mixedEngine_enabled, Checker.findings, fragileChecker, strictChecker, mixedChanges,
      Reply.issues, ChangeSet.size]
  obtain ⟨report, ran, _, faithful, _, reordered⟩ :=
    Engine.run_faithful none [] rfl steady (by simp)
  obtain ⟨other, ranOther, same, _⟩ := reordered ownIds _ (List.reverse_perm _)
  exact ⟨report, ran, faithful, other, ranOther, same⟩

end PlcAudit.Review
