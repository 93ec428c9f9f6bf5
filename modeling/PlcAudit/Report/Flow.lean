import PlcAudit.Flow.Analysis
import PlcAudit.Json.Basic

/-!
Documents about data flow.
-/

namespace PlcAudit.Report

open PlcAudit.Flow

def value : Value → Json
  | .bool value => .object [("bool", .bool value)]
  | .int value => .object [("int", .string (toString value.toInt))]

def defUse (info : DefUse) : Json := .object [
  ("name", .string info.name),
  ("scope", .string info.scope.name),
  ("data_type", .string info.dataType),
  ("declared_line", .nat info.declaredLine),
  ("constant", .bool info.constant),
  ("definitions", .list .nat info.definitions),
  ("uses", .list .nat info.uses),
  ("initialized_at_declaration", .bool info.initializedAtDeclaration),
  ("implicit_default", .bool info.implicitDefault),
  ("defined_before_use", .bool info.definedBeforeUse)]

def callSite (site : CallSite) : Json := .object [
  ("callee", .string site.callee),
  ("line", .nat site.line),
  ("instance", .option .string site.instanceName)]

def deadCode (dead : DeadCode) : Json := .object [
  ("kind", .string dead.kind.name),
  ("file_path", .string dead.file),
  ("pou_name", .string dead.pouName),
  ("start_line", .nat dead.startLine),
  ("end_line", .nat dead.endLine),
  ("description", .string dead.description)]

def uninitializedRead (read : UninitializedRead) : Json := .object [
  ("variable", .string read.name),
  ("line", .nat read.line),
  ("declared_line", .nat read.declaredLine)]

def lineTable (table : Table String (List Nat)) : Json :=
  .list (fun (name, lines) => .array [.string name, .list .nat lines]) table.entries

def controlFlow (id : Nat) (info : ControlFlow) : Json := .array [
  .nat id, .bool info.reachable, .nat info.loopDepth, .nat info.conditionalDepth,
  .bool (0 < info.loopDepth), .bool (0 < info.conditionalDepth)]

def pouFlow (declared : Code.Pou Code.Mark) (flow : PouFlow) : List (String × Json) := [
  ("pou", .string flow.pouName),
  ("file", .string flow.file),
  ("variables", .list (fun (key, info) => .object [
    ("key", .string key), ("info", defUse info), ("initialized", .bool info.isInitialized)])
    flow.uses.entries),
  ("external_reads", lineTable flow.externalReads),
  ("external_writes", lineTable flow.externalWrites),
  ("calls", .list callSite flow.calls),
  ("control_flow", .list (fun (id, info) => controlFlow id info) flow.controlFlow.entries),
  ("uninitialized_reads", .list uninitializedRead flow.uninitializedReads),
  ("dead_code", .list deadCode flow.deadCode),
  ("reachable", .list (fun stmt => .bool (flow.isReachable stmt)) declared.body)]

end PlcAudit.Report
