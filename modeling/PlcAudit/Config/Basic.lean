import PlcAudit.Confidence.Basic
import PlcAudit.Data.Table
import PlcAudit.Review.Rule.Registry
import PlcAudit.Review.Run
import PlcAudit.Text.Glob

/-!
Settings of a review: their defaults, and how environment variables change them.
-/

namespace PlcAudit

open Review

structure Config where
  failurePolicy : FailurePolicy := .skipAndContinue
  continueOnError : Bool := true
  parallel : Bool := true
  minConfidence : Confidence.Level := .low
  similarity : Confidence.Similarity := .ruleAndCategory
  disabledRules : List String := []
  /-- Names of severities by rule id. -/
  severityOverrides : Table String String := .empty
  /-- Paths to leave out; `none` leaves out nothing. -/
  ignoreGlobs : Option (List Glob.Matcher) := none
  thresholds : Thresholds := {}
  strictInitialization : Bool := false

/-- Reads a switch in any of the usual words. -/
def switch? (text : String) : Option Bool :=
  match Text.lower (Text.trim text) with
  | "1" | "true" | "yes" | "on" => some true
  | "0" | "false" | "no" | "off" => some false
  | _ => none

def failurePolicy? (text : String) : Option FailurePolicy :=
  match Text.lower (Text.trim text) with
  | "skip" | "continue" => some .skipAndContinue
  | "abort" => some .abort
  | _ => none

/-- The entries of a list with commas between them; empty ones do not count. -/
def commaList (text : String) : List String :=
  ((Text.pieces ',' text).map Text.trim).filter (· ≠ "")

namespace Config

/-- The settings after the environment variables, given by name. What cannot be read is passed
over, and so are empty lists. -/
def withEnvironment (config : Config) (lookup : String → Option String) : Config :=
  let list := fun name => ((lookup name).map commaList).filter fun entries => !entries.isEmpty
  { config with
    failurePolicy :=
      ((lookup "ST_QA_FAILURE_POLICY").bind failurePolicy?).getD config.failurePolicy
    continueOnError :=
      ((lookup "ST_QA_CONTINUE_ON_ERROR").bind switch?).getD config.continueOnError
    parallel := ((lookup "ST_QA_PARALLEL").bind switch?).getD config.parallel
    minConfidence :=
      ((lookup "ST_QA_MIN_CONFIDENCE").bind Confidence.Level.ofText?).getD config.minConfidence
    disabledRules := (list "ST_QA_DISABLED_RULES").getD config.disabledRules
    ignoreGlobs := (list "ST_QA_IGNORE_GLOBS").elim config.ignoreGlobs Glob.matchers? }

/-- The path is left out of a review. -/
def ignores (config : Config) (path : String) : Bool :=
  path ≠ "" && config.ignoreGlobs.any fun globs => globs.any (·.isMatch path)

end Config

end PlcAudit
