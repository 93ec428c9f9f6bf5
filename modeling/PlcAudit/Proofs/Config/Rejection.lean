import PlcAudit.Config.Document
import PlcAudit.Proofs.Data.Table

/-!
Configuration files that are rejected. A file that cannot be read or is no JSON leaves the settings
alone. A file whose limits cannot be read is rejected too, but the limits come last: all other
settings that it names have been taken over by then.
-/

namespace PlcAudit

/-! Documents without a field -/

namespace Json

/-- The document without all fields of a name. -/
def without (document : Json) (name : String) : Json :=
  match document with
  | .object fields => .object (fields.filter fun field => field.1 ≠ name)
  | other => other

theorem field?_without_self (document : Json) (name : String) :
    (document.without name).field? name = none := by
  cases document with
  | object fields =>
    rw [without, field?, ← List.filter_reverse, List.find?_filter]
    simp
  | _ => rfl

theorem field?_without_of_ne (document : Json) {name other : String} (different : other ≠ name) :
    (document.without name).field? other = document.field? other := by
  cases document with
  | object fields =>
    rw [without, field?, field?, ← List.filter_reverse, List.find?_filter]
    congr 2
    funext field
    by_cases same : field.1 = other
    · simp [same, different]
    · simp [same]
  | _ => rfl

end Json

namespace Config

variable {config : Config} {document : Json}

/-- The severities that a document gives to rules. -/
def severitiesOf (document : Json) : Table String Json :=
  .ofList (((document.field? "severity_overrides").bind Json.fields?).getD [])

/-- The settings are as a document says, its limits apart. What the document does not name, or gives
in a form that cannot be read, may be anything. -/
structure Follows (config : Config) (document : Json) : Prop where
  failurePolicy : ∀ text policy, document.field? "failure_policy" = some (.string text) →
    failurePolicy? text = some policy → config.failurePolicy = policy
  continueOnError : ∀ value, document.field? "continue_on_error" = some (.bool value) →
    config.continueOnError = value
  parallel : ∀ value, document.field? "parallel" = some (.bool value) → config.parallel = value
  strictInitialization : ∀ value, document.field? "strict_initialization" = some (.bool value) →
    config.strictInitialization = value
  minConfidence : ∀ text level, document.field? "min_confidence" = some (.string text) →
    Confidence.Level.ofText? text = some level → config.minConfidence = level
  similarity : ∀ text similarity, document.field? "similarity" = some (.string text) →
    Confidence.Similarity.ofText? text = some similarity → config.similarity = similarity
  disabledRules : ∀ items, document.field? "disabled_rules" = some (.array items) →
    config.disabledRules = items.filterMap Json.string?
  severityOverrides : ∀ rule severity,
    (severitiesOf document).find? rule = some (.string severity) →
      config.severityOverrides.find? rule = some severity
  ignoreGlobs : ∀ items, document.field? "ignore_globs" = some (.array items) →
    config.ignoreGlobs = Glob.matchers? (items.filterMap Json.string?)

/-! Severities -/

/-- Replaces the severity of a rule by a new one that can be read. -/
def overridden (all : Table String String) (entry : String × Json) : Table String String :=
  match entry.2 with
  | .string severity => all.insert entry.1 severity
  | _ => all

theorem find?_overridden (all : Table String String) (entry : String × Json) (rule : String) :
    (overridden all entry).find? rule =
      if rule = entry.1 then entry.2.string?.or (all.find? rule) else all.find? rule := by
  obtain ⟨name, value⟩ := entry
  cases value with
  | string severity =>
    by_cases same : rule = name
    · subst same
      simp [overridden, Json.string?]
    · simp [overridden, same, Table.find?_insert_of_ne _ same]
  | _ => exact (ite_self _).symm

theorem find?_foldl_overridden (given : Table String Json) (all : Table String String)
    (rule : String) :
    (given.entries.foldl overridden all).find? rule =
      ((given.find? rule).bind Json.string?).or (all.find? rule) := by
  have joined : some ((given.entries.foldl overridden all).find? rule) =
      (some (all.find? rule)).merge (fun old new => new.or old)
        ((given.find? rule).map Json.string?) := by
    apply given.look_foldl_entries fun all rule => some (Table.find? all rule)
    intro all entry _ rule
    rw [find?_overridden]
    split <;> rfl
  cases found : given.find? rule with
  | none => simpa [found] using joined
  | some value => simpa [found] using joined

/-! Settings and documents -/

theorem severityOverrides_withFields (config : Config) (document : Json) :
    (config.withFields document).severityOverrides =
      (severitiesOf document).entries.foldl overridden config.severityOverrides :=
  rfl

/-- Settings are as the latest document says. -/
theorem withFields_follows (config : Config) (document : Json) :
    (config.withFields document).Follows document := by
  constructor
  case severityOverrides =>
    intro rule severity given
    rw [severityOverrides_withFields, find?_foldl_overridden, given]
    rfl
  all_goals
    intros
    simp [withFields, Json.string?, Json.bool?, Json.array?, *]

theorem text_of_follows {α : Type} {name : String} {read : String → Option α} {current : α}
    (follows : ∀ text value, document.field? name = some (.string text) →
      read text = some value → current = value) :
    (((document.field? name).bind Json.string?).bind read).getD current = current := by
  rcases named : document.field? name with _ | _ | _ | _ | _ | text | _ | _
  case some.string =>
    cases known : read text with
    | none => simp [Json.string?, known]
    | some value => simp [Json.string?, known, follows text value named known]
  all_goals rfl

theorem switch_of_follows {name : String} {current : Bool}
    (follows : ∀ value, document.field? name = some (.bool value) → current = value) :
    ((document.field? name).bind Json.bool?).getD current = current := by
  rcases named : document.field? name with _ | _ | value | _ | _ | _ | _ | _
  case some.bool => exact (follows value named).symm
  all_goals rfl

theorem list_of_follows {α : Type} {name : String} (read : List String → α) {current : α}
    (follows : ∀ items, document.field? name = some (.array items) →
      current = read (items.filterMap Json.string?)) :
    (((document.field? name).bind Json.array?).map fun items =>
      items.filterMap Json.string?).elim current read = current := by
  rcases named : document.field? name with _ | _ | _ | _ | _ | _ | items | _
  case some.array => exact (follows items named).symm
  all_goals rfl

theorem severities_of_follows (follows : config.Follows document) :
    (config.withFields document).severityOverrides = config.severityOverrides := by
  apply Table.eq_of_find?
  intro rule
  rw [severityOverrides_withFields, find?_foldl_overridden]
  rcases given : (severitiesOf document).find? rule with _ | _ | _ | _ | _ | severity | _ | _
  case some.string => exact (follows.severityOverrides rule severity given).symm
  all_goals rfl

attribute [ext] Config

/-- A document changes nothing exactly where the settings are as it says. -/
theorem withFields_eq_iff : config.withFields document = config ↔ config.Follows document := by
  constructor
  · intro same
    rw [← same]
    exact withFields_follows config document
  · intro follows
    have listed (given : Option (List String)) :
        given.getD config.disabledRules = given.elim config.disabledRules id := by
      cases given <;> rfl
    apply Config.ext
    · exact text_of_follows follows.failurePolicy
    · exact switch_of_follows follows.continueOnError
    · exact switch_of_follows follows.parallel
    · exact text_of_follows follows.minConfidence
    · exact text_of_follows follows.similarity
    · exact (listed _).trans (list_of_follows id follows.disabledRules)
    · exact severities_of_follows follows
    · exact list_of_follows Glob.matchers? follows.ignoreGlobs
    · rfl
    · exact switch_of_follows follows.strictInitialization

/-! Files -/

theorem withFields_congr {other : Json}
    (same : ∀ name, name ≠ "thresholds" → document.field? name = other.field? name) :
    config.withFields document = config.withFields other := by
  simp [withFields, same]

/-- Without its limits, a document is never rejected. -/
theorem withDocument_without (config : Config) (document : Json) :
    config.withDocument (document.without "thresholds") = (config.withFields document, none) := by
  have same : config.withFields (document.without "thresholds") = config.withFields document :=
    withFields_congr fun _ different => document.field?_without_of_ne different
  rw [withDocument, document.field?_without_self, same]

/-- A document is rejected for its limits alone, and then the rest of it has been taken over. -/
theorem withDocument_rejected {error : ConfigError}
    (rejected : (config.withDocument document).2 = some error) :
    error = .badThresholds ∧ (config.withDocument document).1 = config.withFields document ∧
      ∃ given, document.field? "thresholds" = some given ∧ Thresholds.ofJson? given = none := by
  cases named : document.field? "thresholds" with
  | none =>
    rw [withDocument, named] at rejected
    cases rejected
  | some given =>
    cases read : Thresholds.ofJson? given with
    | some limits =>
      simp only [withDocument, named, read] at rejected
      cases rejected
    | none =>
      have applied : config.withDocument document =
          (config.withFields document, some .badThresholds) := by
        simp only [withDocument, named, read]
      rw [applied] at rejected ⊢
      exact ⟨(Option.some.inj rejected).symm, rfl, given, rfl, read⟩

/-- A file is rejected if it cannot be read, is no JSON, or has limits that cannot be read. In the
first two cases the settings stay as they are. In the third all but the limits is taken over, as if
the document did not speak of limits: the settings become what it says, and they stay as they are
only if they were so before. -/
theorem withFile_rejected {file : Option String} {error : ConfigError}
    (rejected : (config.withFile file).2 = some error) :
    (error = .unreadable ∧ file = none ∧ (config.withFile file).1 = config) ∨
    (error = .malformed ∧ (∃ text, file = some text ∧ Json.parse? maxNesting text = none) ∧
      (config.withFile file).1 = config) ∨
    (error = .badThresholds ∧ ∃ text document given, file = some text ∧
      Json.parse? maxNesting text = some document ∧
      document.field? "thresholds" = some given ∧ Thresholds.ofJson? given = none ∧
      config.withDocument (document.without "thresholds") = ((config.withFile file).1, none) ∧
      (config.withFile file).1.thresholds = config.thresholds ∧
      (config.withFile file).1.Follows document ∧
      ((config.withFile file).1 = config ↔ config.Follows document)) := by
  cases file with
  | none => exact .inl ⟨(Option.some.inj rejected).symm, rfl, rfl⟩
  | some text =>
    cases parsed : Json.parse? maxNesting text with
    | none =>
      have unchanged : config.withFile (some text) = (config, some .malformed) := by
        rw [withFile, parsed]
      rw [unchanged] at rejected ⊢
      exact .inr (.inl ⟨(Option.some.inj rejected).symm, ⟨text, rfl, parsed⟩, rfl⟩)
    | some document =>
      have applied : config.withFile (some text) = config.withDocument document := by
        rw [withFile, parsed]
      rw [applied] at rejected ⊢
      obtain ⟨bad, result, given, named, unread⟩ := withDocument_rejected rejected
      rw [result]
      exact .inr (.inr ⟨bad, text, document, given, rfl, parsed, named, unread,
        withDocument_without config document, rfl, withFields_follows config document,
        withFields_eq_iff⟩)

/-- Turns parallel work off, and limits parameters by a word. -/
def wordyLimit : String :=
  "\x7b\"parallel\": false, \"thresholds\": \x7b\"max_parameters\": \"many\"\x7d\x7d"

theorem withFile_rejected_wordyLimit :
    (withFile {} (some wordyLimit)).2 = some .badThresholds ∧
    ∃ document, Json.parse? maxNesting wordyLimit = some document ∧
      (withFile {} (some wordyLimit)).1.Follows document ∧
      withDocument {} (document.without "thresholds") =
        ((withFile {} (some wordyLimit)).1, none) := by
  have rejected : (withFile {} (some wordyLimit)).2 = some .badThresholds := by decide +kernel
  rcases withFile_rejected rejected with ⟨other, _⟩ | ⟨other, _⟩ |
    ⟨_, _, document, _, same, parsed, _, _, rest, _, follows, _⟩
  · cases other
  · cases other
  · cases same
    exact ⟨rejected, document, parsed, follows, rest⟩

/-- The file is rejected, and yet the settings are changed. -/
theorem wordyLimit_applied :
    (withFile {} (some wordyLimit)).2 = some .badThresholds ∧
      (withFile {} (some wordyLimit)).1 ≠ {} := by
  have parallel : (withFile {} (some wordyLimit)).1.parallel = false := by decide +kernel
  refine ⟨by decide +kernel, fun unchanged => ?_⟩
  rw [unchanged] at parallel
  cases parallel

end Config

end PlcAudit
