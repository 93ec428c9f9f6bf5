import PlcAudit.Config.Basic
import PlcAudit.Json.Reader

/-!
Settings from JSON documents. A document changes the settings that it names; a value of the wrong
kind is passed over, except in the limits of the rules, which have to be right as a whole.
-/

namespace PlcAudit

open Review

/-- A limit is a whole number that is not negative. -/
def limit? : Json → Option Nat
  | .int value => if 0 ≤ value then some value.toNat else none
  | _ => none

/-- The names of the limits in the order in which a list of limits gives them. -/
def limitNames : List String :=
  ["max_function_lines", "critical_function_lines", "max_nesting_depth", "max_complexity",
    "max_parameters", "max_name_length", "global_warning_count", "global_max_count",
    "lines_per_comment"]

def Thresholds.set (limits : Thresholds) (name : String) (value : Nat) : Thresholds :=
  match name with
  | "max_function_lines" => { limits with maxFunctionLines := value }
  | "critical_function_lines" => { limits with criticalFunctionLines := value }
  | "max_nesting_depth" => { limits with maxNestingDepth := value }
  | "max_complexity" => { limits with maxComplexity := value }
  | "max_parameters" => { limits with maxParameters := value }
  | "max_name_length" => { limits with maxNameLength := value }
  | "global_warning_count" => { limits with globalWarningCount := value }
  | "global_max_count" => { limits with globalMaxCount := value }
  | "lines_per_comment" => { limits with linesPerComment := value }
  | _ => limits

/-- Sets the limits that are given; limits that are missing keep their defaults. -/
private def setLimits? (given : List (String × Json)) : Option Thresholds :=
  given.foldlM
    (fun limits (name, value) =>
      if limitNames.contains name then (limit? value).map (Thresholds.set limits name)
      else some limits)
    {}

/-- Reads limits from an object, or from a list of the first limits in order. -/
def Thresholds.ofJson? : Json → Option Thresholds
  | .object fields => setLimits? (Table.ofList fields).entries
  | .array items =>
    if limitNames.length < items.length then none else setLimits? (limitNames.zip items)
  | _ => none

inductive ConfigError where
  | unreadable
  | malformed
  | badThresholds
  deriving DecidableEq, Inhabited, Repr

def ConfigError.message (path : String) : ConfigError → String
  | .unreadable => s!"reading {path}"
  | .malformed => s!"parsing {path} as JSON"
  | .badThresholds => s!"invalid thresholds in {path}"

namespace Config

/-- The settings after all parts of a document but the limits. -/
def withFields (config : Config) (document : Json) : Config :=
  let text := fun name => (document.field? name).bind Json.string?
  let switch := fun name => (document.field? name).bind Json.bool?
  let list := fun name =>
    ((document.field? name).bind Json.array?).map fun items => items.filterMap Json.string?
  let overrides := ((document.field? "severity_overrides").bind Json.fields?).getD []
  { config with
    failurePolicy := ((text "failure_policy").bind failurePolicy?).getD config.failurePolicy
    continueOnError := (switch "continue_on_error").getD config.continueOnError
    parallel := (switch "parallel").getD config.parallel
    strictInitialization := (switch "strict_initialization").getD config.strictInitialization
    minConfidence :=
      ((text "min_confidence").bind Confidence.Level.ofText?).getD config.minConfidence
    similarity := ((text "similarity").bind Confidence.Similarity.ofText?).getD config.similarity
    disabledRules := (list "disabled_rules").getD config.disabledRules
    severityOverrides := (Table.ofList overrides).entries.foldl
      (fun all (rule, severity) =>
        match severity with
        | .string name => all.insert rule name
        | _ => all)
      config.severityOverrides
    ignoreGlobs := (list "ignore_globs").elim config.ignoreGlobs Glob.matchers? }

/-- The settings after a document. Limits that cannot be read are an error, and the rest of the
document is applied all the same. -/
def withDocument (config : Config) (document : Json) : Config × Option ConfigError :=
  let changed := config.withFields document
  match document.field? "thresholds" with
  | none => (changed, none)
  | some given =>
    match Thresholds.ofJson? given with
    | some thresholds => ({ changed with thresholds }, none)
    | none => (changed, some .badThresholds)

/-- Documents may be nested this deep. -/
def maxNesting : Nat := 127

/-- The settings after a file, given by its text if it can be read. -/
def withFile (config : Config) : Option String → Config × Option ConfigError
  | none => (config, some .unreadable)
  | some text =>
    match Json.parse? maxNesting text with
    | none => (config, some .malformed)
    | some document => config.withDocument document

/-- Defaults, then the environment, then the configuration file if there is one. Errors in the file
do not stop the review. -/
def load (lookup : String → Option String) (file : Option String) : Config :=
  let config := withEnvironment {} lookup
  match file with
  | none => config
  | some text => (config.withFile (some text)).1

end Config

end PlcAudit
