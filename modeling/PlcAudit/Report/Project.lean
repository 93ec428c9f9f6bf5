import PlcAudit.Project.Session
import PlcAudit.Report.Graph
import PlcAudit.Report.Review
import PlcAudit.Report.Usage

/-!
Documents about runs over a project and about sessions.
-/

namespace PlcAudit.Report

open Project

def analysisError (error : AnalysisError) : List (String × Json) := [
  ("error", .string error.name),
  ("message", .string error.message)]

def externalReport (report : ExternalReport) : Json := .object [
  ("errors", .strings report.errors),
  ("warnings", .strings report.warnings),
  ("issues", .list issue report.issues),
  ("success", .bool report.isSuccess)]

def usageCounts (found : Usage.Analysis) : Json := .object [
  ("unused", .nat found.unused.length),
  ("uninitialized", .nat found.uninitialized.length),
  ("dead_code", .nat found.deadCode.length),
  ("partial", .bool found.incomplete),
  ("files", .nat found.filesAnalyzed)]

def dependencyCounts (found : Graph.Dependencies) : Json := .object [
  ("cycles", .list (fun cycle => .string cycle.text) found.cycles),
  ("depth", .string found.maxDepth.text),
  ("partial", .bool found.incomplete),
  ("files", .nat found.filesAnalyzed)]

def projectResult (result : Result) : List (String × Json) := [
  ("project", .string result.project),
  ("completed", .bool result.completed),
  ("compilation", .option externalReport result.compilation),
  ("io_mapping", .option externalReport result.ioMapping),
  ("failures", .list (fun failure => .strings [failure.analysis, failure.message])
    result.failures),
  ("cancelled", .bool result.cancelled),
  ("success", .bool result.isSuccess),
  ("total_issues", .nat result.totalIssues),
  ("score", .string (Number.fixed 6 result.score)),
  ("summary", .string result.summary),
  ("variables", .option usageCounts result.usage),
  ("dependencies", .option dependencyCounts result.dependencies),
  ("issues", .list (fun issue => .strings
    [issue.ruleId, issue.severity.name, issue.location, issue.title, issue.description])
    result.issues)]

/-- The result of a run, or why there is none. -/
def projectOutcome : Except AnalysisError Result → List (String × Json)
  | .ok result => projectResult result
  | .error error => analysisError error

def runMetrics (metrics : Metrics) : Json := .object [
  ("files", .nat metrics.filesAnalyzed),
  ("failed", .nat metrics.analysesFailed),
  ("timed", timedCounts metrics)]

def fileAnalysis (found : FileAnalysis) : Json := .object [
  ("file", .string found.file),
  ("variables", .object (usage found.usage)),
  ("dependencies", .object (dependencies found.dependencies))]

def fileBatch (batch : FileBatch) (metrics : Metrics) : Json := .object [
  ("results", .list fileAnalysis batch.results),
  ("total", .nat batch.total),
  ("cancelled", .bool batch.cancelled),
  ("complete", match batch.ensureComplete with
    | .ok _ => .string "ok"
    | .error error => .object (analysisError error)),
  ("metrics", runMetrics metrics)]

/-- The session itself; identifiers of sessions have sixteen characters. -/
def session (session : Session) : Json := .object [
  ("name", .string session.projectName),
  ("path", .string session.path),
  ("mode", .string session.mode.name),
  ("id_len", .nat 16)]

def sessionState (session : Session) : Json := .object [
  ("files", .list (fun file => .object [
    ("path", .string file.path),
    ("language", .string file.language),
    ("line_count", .nat file.lineCount)]) session.files),
  ("total_lines", .nat session.totalLines),
  ("trees", .nat session.trees.length),
  ("violations", .list (fun issue => .strings
    [issue.ruleId, issue.severity.name, issue.location]) session.violations),
  ("by_severity", .list (fun (severity, count) => .array [.string severity.name, .nat count])
    session.bySeverity),
  ("compliance", .list (fun (category, share) => .strings [category, Number.fixed 6 share])
    session.compliance),
  ("quality_score", .string (Number.fixed 6 session.qualityScore)),
  ("completed", .bool session.completed),
  ("variable_analysis", .bool session.usage.isSome),
  ("dependency_analysis", .bool session.dependencies.isSome)]

end PlcAudit.Report
