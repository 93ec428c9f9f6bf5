import PlcAudit.Report.Issue
import PlcAudit.Review.Engine

/-!
Documents about changes, rules, runs of the review engine and its counters.
-/

namespace PlcAudit.Report

open Review

def logicChange (change : LogicChange) : Json := .object [
  ("change_type", .string change.edit.name),
  ("element_name", .string change.name),
  ("file_path", .string change.file),
  ("start_line", .nat change.firstLine),
  ("end_line", .nat change.lastLine),
  ("old_code", .option .string change.oldCode),
  ("new_code", .option .string change.newCode),
  ("summary", .string change.summary)]

def checkFailure (failure : CheckFailure) : Json := .object [
  ("rule_id", .string failure.ruleId),
  ("kind", .string failure.subject.name),
  ("message", .string failure.message)]

def run (report : RunReport) : List (String × Json) := [
  ("issues", .list issue report.issues),
  ("failures", .list checkFailure report.failures),
  ("failure_errors", .list (fun failure => .string failure.text) report.failures),
  ("rules_run", .nat report.rulesRun),
  ("changes_examined", .nat report.changesExamined),
  ("cancelled", .bool report.cancelled)]

def row (row : Row) : Json := .object [
  ("id", .string row.id),
  ("name", .string row.name),
  ("severity", .string row.severity.name),
  ("category", .string row.area.title),
  ("target", .string row.target.name),
  ("title", .string row.title),
  ("recommendation", .string row.recommendation),
  ("enabled", .bool row.isDefault)]

/-- The rules of an engine and the size of the catalogue, with the number of rows whose pattern can
be read. -/
def rules (engine : Engine) : Json := .object [
  ("rules", .list (fun (checker : Checker) =>
    .strings [checker.id, checker.name, checker.description, checker.severity.name])
    engine.checkers),
  ("catalogue", .nat catalogue.length),
  ("compiled", .nat (catalogue.filter fun row => (Pattern.parse? row.pattern).isSome).length)]

private def counts (table : Table String Nat) : Json :=
  .object (table.entries.map fun (key, count) => (key, .nat count))

/-- The counters with a given document for the timings. -/
def metricsWith (metrics : Metrics) (timings : Json) : Json := .object [
  ("rule_runs", .nat metrics.ruleRuns),
  ("rules_executed", .nat metrics.rulesExecuted),
  ("changes_examined", .nat metrics.changesExamined),
  ("checker_failures", .nat metrics.checkFailures),
  ("failures_by_rule", counts metrics.failuresByRule),
  ("issues_by_severity", counts metrics.issuesBySeverity),
  ("top_rules", .list (fun frequency => .array [
    .string frequency.ruleId, .nat frequency.count,
    .string (Number.fixedSingle 4 frequency.percentage)]) metrics.topRules),
  ("files_analyzed", .nat metrics.filesAnalyzed),
  ("analyses_failed", .nat metrics.analysesFailed),
  ("timings", timings)]

def timing (timing : OperationTiming) : Json := .object [
  ("operation", .string timing.operation),
  ("count", .nat timing.count),
  ("average", .string (Number.fixedSingle 4 timing.average)),
  ("p95", .string (Number.fixedSingle 4 timing.ninetyFifth)),
  ("max", .string (Number.fixedSingle 4 timing.greatest))]

def metrics (metrics : Metrics) : Json :=
  metricsWith metrics (.list timing metrics.timings)

/-- How often each operation was timed. -/
def timedCounts (metrics : Metrics) : Json :=
  .list (fun (operation, count) => .array [.string operation, .nat count]) metrics.timedCounts

/-- The counters of an engine, without clock values. -/
def engineMetrics (metrics : Metrics) : Json := .object [
  ("snapshot", metricsWith metrics (timedCounts metrics)),
  ("by_severity", .list (fun severity => .nat (metrics.issuesWith severity)) Severity.all),
  ("checker_failures", .nat metrics.checkFailures)]

end PlcAudit.Report
