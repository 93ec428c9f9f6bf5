import PlcAudit.Confidence.Statistics
import PlcAudit.Json.Basic
import PlcAudit.Review.Enhancement

/-!
Documents about issues, their confidence and their suppression.
-/

namespace PlcAudit.Report

open Confidence Review

def issue (issue : Issue) : Json := .object [
  ("severity", .string issue.severity.name),
  ("category", .string issue.category),
  ("title", .string issue.title),
  ("description", .string issue.description),
  ("location", .string issue.location),
  ("file_path", .string issue.file),
  ("line", .nat issue.line),
  ("why_dangerous", .string issue.whyDangerous),
  ("recommendation", .string issue.recommendation),
  ("examples", .strings issue.examples),
  ("rule_id", .string issue.ruleId),
  ("old_code_snippet", .string issue.oldSnippet),
  ("new_code_snippet", .string issue.newSnippet)]

/-- Only severity, place, rule and title. -/
def issueLine (issue : Issue) : Json := .array [
  .string issue.severity.name, .string issue.file, .nat issue.line, .string issue.ruleId,
  .string issue.title]

def suppression (suppression : Suppression) : Json := .object [
  ("reason", .string suppression.reason),
  ("source", .string suppression.source.name)]

def feedback (feedback : Feedback) : Json := .object [
  ("action", .string feedback.action.name),
  ("comment", .option .string feedback.comment),
  ("modified_severity", .option (fun severity => .string severity.name) feedback.severity),
  ("by", .option .string feedback.author)]

def enhanced (enhanced : Enhanced) : Json := .object [
  ("issue", issue enhanced.issue),
  ("issue_id", .string enhanced.id),
  ("confidence", .string enhanced.confidence.name),
  ("confidence_score", .nat enhanced.score),
  ("confidence_reasons", .strings enhanced.reasons),
  ("analysis_level", .string enhanced.analysisLevel.name),
  ("ast_context", .null),
  ("ai_context", .null),
  ("suppression", .option suppression enhanced.suppression),
  ("related_issue_ids", .strings enhanced.related),
  ("feedback", .option feedback enhanced.feedback),
  ("risk_score", .nat enhanced.riskScore),
  ("effective_severity", .string enhanced.effectiveSeverity.name),
  ("suppressed", .bool enhanced.isSuppressed),
  ("summary", .string enhanced.summary)]

def signals (signals : Signals) : Json := .object [
  ("confirmed_by_ast", .bool signals.confirmedByAst),
  ("confirmed_by_dataflow", .bool signals.confirmedByDataflow),
  ("ambiguous_context", .bool signals.ambiguousContext),
  ("possible_external_reference", .bool signals.externalReference),
  ("is_io_variable", .bool signals.ioVariable),
  ("is_global_variable", .bool signals.globalVariable),
  ("similar_occurrences", .nat signals.similarOccurrences),
  ("notes", .strings signals.notes),
  ("context", .list (fun (key, value) => .strings [key, value]) signals.context)]

def confidence (result : Result) : Json := .object [
  ("result", .object [
    ("score", .nat result.score),
    ("level", .string result.level.name),
    ("reasons", .strings result.reasons),
    ("breakdown", .list (fun (factor, delta) => .array [.string factor, .int delta])
      result.breakdown)]),
  ("valid", .bool result.isConsistent),
  ("report", .string result.report)]

def statistics (statistics : Statistics) : Json := .object [
  ("total", .nat statistics.total),
  ("high", .nat statistics.high),
  ("medium", .nat statistics.medium),
  ("low", .nat statistics.low),
  ("average", .nat statistics.average),
  ("min", .nat statistics.least),
  ("max", .nat statistics.greatest),
  ("high_percentage", .string (Number.fixed 6 statistics.highPercentage)),
  ("medium_or_high_percentage", .string (Number.fixed 6 statistics.mediumOrHighPercentage)),
  ("text", .string statistics.text)]

end PlcAudit.Report
