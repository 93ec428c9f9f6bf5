import PlcAudit.Config.Document
import PlcAudit.Project.Result

/-!
Documents about settings.
-/

namespace PlcAudit.Report

open Review

def thresholds (limits : Thresholds) : Json := .object [
  ("max_function_lines", .nat limits.maxFunctionLines),
  ("critical_function_lines", .nat limits.criticalFunctionLines),
  ("max_nesting_depth", .nat limits.maxNestingDepth),
  ("max_complexity", .nat limits.maxComplexity),
  ("max_parameters", .nat limits.maxParameters),
  ("max_name_length", .nat limits.maxNameLength),
  ("global_warning_count", .nat limits.globalWarningCount),
  ("global_max_count", .nat limits.globalMaxCount),
  ("lines_per_comment", .nat limits.linesPerComment)]

def options (options : Project.Options) : Json := .object [
  ("run_variable_analysis", .bool options.usage),
  ("run_dependency_analysis", .bool options.dependencies),
  ("run_compilation", .bool options.compilation),
  ("run_io_mapping", .bool options.ioMapping),
  ("parallel", .bool options.parallel),
  ("continue_on_error", .bool options.continueOnError),
  ("strict_initialization", .bool options.strict)]

/-- The settings, which of the paths they leave out, and the options that follow from them. -/
def config (config : Config) (paths : List String) : Json := .object [
  ("failure_policy", .string config.failurePolicy.name),
  ("continue_on_error", .bool config.continueOnError),
  ("parallel", .bool config.parallel),
  ("min_confidence", .string config.minConfidence.name),
  ("similarity", .string config.similarity.name),
  ("disabled_rules", .strings config.disabledRules),
  ("severity_overrides", .object (config.severityOverrides.entries.map
    fun (rule, severity) => (rule, .string severity))),
  ("globs", .option (fun globs => .nat globs.length) config.ignoreGlobs),
  ("thresholds", thresholds config.thresholds),
  ("strict_initialization", .bool config.strictInitialization),
  ("ignored", .list (fun path => .bool (config.ignores path)) paths),
  ("options", options (.ofConfig config))]

/-- What became of a file at a path, and the settings after it. -/
def configStep (path : String) (changed : Config) (error : Option ConfigError)
    (paths : List String) : Json := .object [
  ("error", .option (fun error => .string (ConfigError.message path error)) error),
  ("config", config changed paths)]

end PlcAudit.Report
