import PlcAudit.Report.Flow
import PlcAudit.Report.Issue
import PlcAudit.Usage

/-!
Documents about variable usage.
-/

namespace PlcAudit.Report

open Usage

def unusedVariable (v : UnusedVariable) : Json := .object [
  ("name", .string v.name),
  ("scope", .string v.scope.name),
  ("data_type", .string v.dataType),
  ("file_path", .string v.file),
  ("pou_name", .option .string v.pouName),
  ("declared_line", .nat v.declaredLine),
  ("assigned", .bool v.assigned)]

def uninitializedVariable (v : UninitializedVariable) : Json := .object [
  ("name", .string v.name),
  ("file_path", .string v.file),
  ("pou_name", .string v.pouName),
  ("declared_line", .nat v.declaredLine),
  ("first_use_line", .nat v.firstUseLine)]

def variableStatistics (v : VariableStatistics) : Json := .object [
  ("name", .string v.name),
  ("scope", .string v.scope.name),
  ("file_path", .string v.file),
  ("pou_name", .option .string v.pouName),
  ("reads", .nat v.reads),
  ("writes", .nat v.writes),
  ("first_line", .option .nat v.firstLine),
  ("last_line", .option .nat v.lastLine)]

def usage (analysis : Usage.Analysis) : List (String × Json) := [
  ("project_path", .string analysis.project),
  ("unused", .list unusedVariable analysis.unused),
  ("uninitialized", .list uninitializedVariable analysis.uninitialized),
  ("dead_code", .list deadCode analysis.deadCode),
  ("usage", .list variableStatistics analysis.usage),
  ("files_analyzed", .nat analysis.filesAnalyzed),
  ("partial", .bool analysis.incomplete),
  ("total_issues", .nat analysis.totalIssues),
  ("issues", .list issue analysis.issues)]

end PlcAudit.Report
