import Mathlib.Data.List.Forall2
import PlcAudit.Proofs.Data.Table
import PlcAudit.Review.Enhancement

/-!
Overridden severities. All overrides are read before an issue is touched, so one that names no
severity leaves every issue as it is. Otherwise an issue takes the severity that is named for its
rule, unless it has it already, and applying the overrides once more finds nothing to change.
-/

namespace PlcAudit.Review

/-! Reading -/

/-- The severity that overrides name for a rule in any letter case. Of several keys of one rule the
last in key order counts. -/
def namedSeverity? (overrides : Table String String) (ruleId : String) : Option Severity :=
  (overrides.entries.reverse.find? fun entry => Text.upper entry.1 = Text.upper ruleId).bind
    fun entry => Severity.ofText? entry.2

/-- The first override in key order that names no severity. -/
def firstUnread? (overrides : Table String String) : Option (String × String) :=
  overrides.entries.find? fun entry => (Severity.ofText? entry.2).isNone

theorem firstUnread?_isSome_iff (overrides : Table String String) :
    (firstUnread? overrides).isSome ↔
      ∃ entry ∈ overrides.entries, Severity.ofText? entry.2 = none := by
  simp only [firstUnread?, List.find?_isSome, Option.isNone_iff_eq_none]

/-- An override as it is kept once it is read. -/
def readOverride? (entry : String × String) : Option (String × Severity) :=
  (Severity.ofText? entry.2).map fun severity => (Text.upper entry.1, severity)

/-- Reading stops at the first override that names no severity. -/
theorem readOverrides_eq (overrides : Table String String) :
    readOverrides overrides =
      match firstUnread? overrides with
      | some entry => .error { ruleId := entry.1, value := entry.2 }
      | none => .ok (.ofList (overrides.entries.filterMap readOverride?)) := by
  -- The induction is on the entries, so what has been read so far has to vary.
  unfold readOverrides firstUnread? Table.ofList
  generalize (Table.empty : Table String Severity) = read
  induction overrides.entries generalizing read with
  | nil => rfl
  | cons entry rest ih =>
    obtain ⟨ruleId, value⟩ := entry
    rw [List.foldlM_cons]
    cases named : Severity.ofText? value with
    | none => simp [named, bind, Except.bind]
    | some severity => simpa [readOverride?, named, bind, Except.bind] using ih _

theorem find?_readOverride {entries : List (String × String)}
    (readable : ∀ entry ∈ entries, Severity.ofText? entry.2 ≠ none) (key : String) :
    ((entries.filterMap readOverride?).find? fun entry => entry.1 = key).map Prod.snd =
      (entries.find? fun entry => Text.upper entry.1 = key).bind
        fun entry => Severity.ofText? entry.2 := by
  induction entries with
  | nil => rfl
  | cons entry rest ih =>
    obtain ⟨first, later⟩ := List.forall_mem_cons.mp readable
    obtain ⟨severity, named⟩ := Option.ne_none_iff_exists'.mp first
    have read : readOverride? entry = some (Text.upper entry.1, severity) := by
      simp [readOverride?, named]
    rw [List.filterMap_cons_some read]
    by_cases here : Text.upper entry.1 = key
    · simp [here, named]
    · rw [List.find?_cons_of_neg (by simpa using here),
        List.find?_cons_of_neg (by simpa using here), ih later]

/-- Overrides that can all be read name the severity of each rule. -/
theorem exists_readOverrides {overrides : Table String String}
    (readable : ∀ entry ∈ overrides.entries, Severity.ofText? entry.2 ≠ none) :
    ∃ read, readOverrides overrides = .ok read ∧
      ∀ ruleId, read.find? (Text.upper ruleId) = namedSeverity? overrides ruleId := by
  have all : firstUnread? overrides = none := by
    rw [← Option.not_isSome_iff_eq_none, firstUnread?_isSome_iff]
    exact fun ⟨entry, member, nameless⟩ => readable entry member nameless
  refine ⟨_, by rw [readOverrides_eq, all], fun ruleId => ?_⟩
  rw [Table.find?_ofList_last, ← List.filterMap_reverse]
  exact find?_readOverride (fun entry member => readable entry (List.mem_reverse.mp member)) _

/-! Applying -/

/-- An issue before and after overrides that name a severity for its rule, or none. Only feedback
and risk may differ, and these differ only if the issue had another severity. -/
structure OverriddenBy (named : Option Severity) (before after : Enhanced) : Prop where
  kept : after = { before with feedback := after.feedback, riskScore := after.riskScore }
  changed : ∀ severity, named = some severity → severity ≠ before.effectiveSeverity →
    after.effectiveSeverity = severity ∧
      after.riskScore = min 100 (severity.weight * before.score / 10)
  unchanged : (∀ severity, named = some severity → severity = before.effectiveSeverity) →
    after = before

/-- The issue with another severity, unless it has that severity already. -/
def Enhanced.withOverride (enhanced : Enhanced) (named : Option Severity) : Enhanced :=
  match named.filter (· != enhanced.effectiveSeverity) with
  | some severity => enhanced.withFeedback (overrideFeedback enhanced.issue severity)
  | none => enhanced

theorem withOverride_overriddenBy (enhanced : Enhanced) (named : Option Severity) :
    OverriddenBy named enhanced (enhanced.withOverride named) := by
  unfold Enhanced.withOverride
  cases found : named.filter (· != enhanced.effectiveSeverity) with
  | some severity =>
    obtain ⟨given, other⟩ := Option.filter_eq_some_iff.mp found
    constructor
    case kept => rfl
    case changed =>
      intro wanted named _
      obtain rfl := Option.some.inj (given.symm.trans named)
      exact ⟨rfl, rfl⟩
    case unchanged =>
      intro same
      simp [same severity given] at other
  | none =>
    constructor
    case kept => rfl
    case changed =>
      intro wanted given other
      simp [given, other] at found
    case unchanged => exact fun _ => rfl

/-- The issue has another severity than the one that is named for its rule. -/
def isOverridden (overrides : Table String String) (enhanced : Enhanced) : Bool :=
  (namedSeverity? overrides enhanced.issue.ruleId).any (· != enhanced.effectiveSeverity)

/-- The issue with the severity that is named for its rule. -/
def underOverrides (overrides : Table String String) (enhanced : Enhanced) : Enhanced :=
  enhanced.withOverride (namedSeverity? overrides enhanced.issue.ruleId)

section

variable (overrides : Table String String) (enhanced : Enhanced)

theorem issue_underOverrides : (underOverrides overrides enhanced).issue = enhanced.issue := by
  rw [underOverrides, (withOverride_overriddenBy enhanced _).kept]

theorem severity_underOverrides {severity : Severity}
    (named : namedSeverity? overrides enhanced.issue.ruleId = some severity) :
    (underOverrides overrides enhanced).effectiveSeverity = severity := by
  have result := withOverride_overriddenBy enhanced (namedSeverity? overrides enhanced.issue.ruleId)
  by_cases same : severity = enhanced.effectiveSeverity
  · rw [underOverrides, result.unchanged (by simpa [named] using same), same]
  · exact (result.changed severity named same).1

theorem isOverridden_underOverrides :
    isOverridden overrides (underOverrides overrides enhanced) = false := by
  rw [isOverridden, issue_underOverrides]
  cases named : namedSeverity? overrides enhanced.issue.ruleId with
  | none => rfl
  | some severity => simp [severity_underOverrides overrides enhanced named]

theorem underOverrides_underOverrides :
    underOverrides overrides (underOverrides overrides enhanced) =
      underOverrides overrides enhanced := by
  refine (withOverride_overriddenBy (underOverrides overrides enhanced) _).unchanged ?_
  intro severity named
  rw [issue_underOverrides] at named
  exact (severity_underOverrides overrides enhanced named).symm

end

/-- Going through the issues changes and counts exactly those with another severity. -/
theorem overrideAll_eq {overrides : Table String String} {read : Table String Severity}
    (named : ∀ ruleId, read.find? (Text.upper ruleId) = namedSeverity? overrides ruleId)
    (issues : List Enhanced) :
    overrideAll read issues =
      (issues.map (underOverrides overrides), issues.countP (isOverridden overrides)) := by
  induction issues with
  | nil => rfl
  | cons enhanced rest ih =>
    have wanted : overrideFor? read enhanced =
        (namedSeverity? overrides enhanced.issue.ruleId).filter
          (· != enhanced.effectiveSeverity) := by
      rw [overrideFor?, named]
    have changes : isOverridden overrides enhanced = (overrideFor? read enhanced).isSome := by
      rw [wanted, Option.isSome_filter, isOverridden]
    rw [overrideAll, ih, List.map_cons, List.countP_cons, underOverrides, Enhanced.withOverride,
      ← wanted, changes]
    cases overrideFor? read enhanced <;> rfl

theorem applyOverrides_of_readable {overrides : Table String String}
    (readable : ∀ entry ∈ overrides.entries, Severity.ofText? entry.2 ≠ none)
    (issues : List Enhanced) :
    applyOverrides overrides issues =
      (issues.map (underOverrides overrides), .ok (issues.countP (isOverridden overrides))) := by
  obtain ⟨read, done, named⟩ := exists_readOverrides readable
  rw [applyOverrides, done]
  simp only [overrideAll_eq named]

/-- Overrides of which one names no severity are refused, the first of these is reported, and all
issues stay as they are. Otherwise the issues are counted that have another severity than the one
named for their rule; these take it, with the risk that goes with it, and all others stay as they
are. The same overrides change nothing more. -/
theorem applyOverrides_exact (overrides : Table String String) (issues : List Enhanced) :
    ((∃ entry ∈ overrides.entries, Severity.ofText? entry.2 = none) →
      ∃ entry, firstUnread? overrides = some entry ∧
        applyOverrides overrides issues =
          (issues, .error { ruleId := entry.1, value := entry.2 })) ∧
    ((∀ entry ∈ overrides.entries, Severity.ofText? entry.2 ≠ none) →
      ∃ after,
        applyOverrides overrides issues =
          (after, .ok (issues.countP (isOverridden overrides))) ∧
        List.Forall₂ (fun before after =>
          OverriddenBy (namedSeverity? overrides before.issue.ruleId) before after)
            issues after ∧
        applyOverrides overrides after = (after, .ok 0)) := by
  constructor
  · intro unread
    obtain ⟨entry, first⟩ :=
      Option.isSome_iff_exists.mp ((firstUnread?_isSome_iff overrides).mpr unread)
    refine ⟨entry, first, ?_⟩
    rw [applyOverrides, readOverrides_eq, first]
  · intro readable
    refine ⟨_, applyOverrides_of_readable readable issues, ?_, ?_⟩
    · refine List.forall₂_map_right_iff.mpr (List.forall₂_same.mpr fun enhanced _ => ?_)
      exact withOverride_overriddenBy enhanced _
    · have nothing :
          (issues.map (underOverrides overrides)).countP (isOverridden overrides) = 0 := by
        simp [List.countP_eq_zero, isOverridden_underOverrides]
      have again : (issues.map (underOverrides overrides)).map (underOverrides overrides) =
          issues.map (underOverrides overrides) := by
        simp [underOverrides_underOverrides]
      rw [applyOverrides_of_readable readable, nothing, again]

/-- An issue that was dismissed and taken for harmless. -/
def dismissedIssue : Enhanced where
  issue := { ruleId := "Qa001", severity := .warning, category := "Safety", title := "Narrowed" }
  id := "4f1a"
  score := 80
  suppression := some ⟨"known", .feedback⟩
  feedback := some { action := .reject, comment := some "known", severity := some .info }
  riskScore := 16

/-- Two spellings of one rule, of which the second counts. -/
def respelledOverrides : Table String String := .ofList [("QA001", "info"), ("qa001", " Error ")]

/-- A severity that cannot be read, behind one that can. -/
def misspelledOverrides : Table String String := .ofList [("QA001", "error"), ("QA002", "fatal")]

theorem applyOverrides_exact_respelled :
    (∃ problem, applyOverrides misspelledOverrides [dismissedIssue] =
        ([dismissedIssue], .error problem) ∧ problem.value = "fatal") ∧
    ∃ after, applyOverrides respelledOverrides [dismissedIssue] = ([after], .ok 1) ∧
      after.effectiveSeverity = .critical ∧ after.riskScore = 80 ∧
      after.suppression = dismissedIssue.suppression ∧
      applyOverrides respelledOverrides [after] = ([after], .ok 0) := by
  constructor
  · have unread : ∃ entry ∈ misspelledOverrides.entries, Severity.ofText? entry.2 = none :=
      ⟨("QA002", "fatal"), by decide +kernel, by decide +kernel⟩
    obtain ⟨entry, first, refused⟩ :=
      (applyOverrides_exact misspelledOverrides [dismissedIssue]).1 unread
    have known : firstUnread? misspelledOverrides = some ("QA002", "fatal") := by decide +kernel
    obtain rfl := Option.some.inj (known.symm.trans first)
    exact ⟨_, refused, rfl⟩
  · have readable : ∀ entry ∈ respelledOverrides.entries, Severity.ofText? entry.2 ≠ none := by
      decide +kernel
    obtain ⟨changed, applied, each, again⟩ :=
      (applyOverrides_exact respelledOverrides [dismissedIssue]).2 readable
    have named :
        namedSeverity? respelledOverrides dismissedIssue.issue.ruleId = some .critical := by
      decide +kernel
    have counted : [dismissedIssue].countP (isOverridden respelledOverrides) = 1 := by
      decide +kernel
    obtain ⟨after, _, result, rest, rfl⟩ := List.forall₂_cons_left_iff.mp each
    obtain rfl := List.forall₂_nil_left_iff.mp rest
    obtain ⟨severity, risk⟩ := result.changed .critical named (by decide)
    rw [counted] at applied
    exact ⟨after, applied, severity, risk, by rw [result.kept], again⟩

end PlcAudit.Review
