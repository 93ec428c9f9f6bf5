import PlcAudit.Data.Order
import PlcAudit.Data.Schedule
import PlcAudit.Flow.Analysis
import PlcAudit.Issue.Basic

/-!
Variable usage of a project: variables that are never read, reads without an assignment, dead code,
globals across files, and functions that nobody calls.
-/

namespace PlcAudit.Usage

open Code PlcAudit.Flow

structure UnusedVariable where
  name : String
  scope : Scope
  dataType : String
  file : String
  /-- The declaring unit; globals have none. -/
  pouName : Option String
  declaredLine : Nat
  /-- It is written but never read. -/
  assigned : Bool
  deriving DecidableEq, Repr

structure UninitializedVariable where
  name : String
  file : String
  pouName : String
  declaredLine : Nat
  firstUseLine : Nat
  deriving DecidableEq, Repr

structure VariableStatistics where
  name : String
  scope : Scope
  file : String
  pouName : Option String
  reads : Nat
  writes : Nat
  firstLine : Option Nat
  lastLine : Option Nat
  deriving DecidableEq, Repr

structure Analysis where
  project : String
  unused : List UnusedVariable := []
  uninitialized : List UninitializedVariable := []
  deadCode : List DeadCode := []
  usage : List VariableStatistics := []
  filesAnalyzed : Nat := 0
  /-- Some files were left out, so that nothing is said about the project as a whole. -/
  incomplete : Bool := false

structure Options where
  strict : Bool := false
  /-- Functions that are called from outside the project. -/
  entryPoints : List String := []
  /-- The files are a part of a larger project. -/
  perFile : Bool := false

/-- A variable of this scope with so many reads and writes is of no use. Outputs are read by
callers, and globals are judged over the whole project. -/
def isUnused (scope : Scope) (reads writes : Nat) : Bool :=
  match scope with
  | .local_ | .temp | .input => reads == 0
  | .inOut | .external => reads == 0 && writes == 0
  | .output | .global => false

/-- Statistics from the lines of the reads and writes. -/
def statistics (name : String) (scope : Scope) (file : String) (pouName : Option String)
    (reads writes : List Nat) : VariableStatistics where
  name := name
  scope := scope
  file := file
  pouName := pouName
  reads := reads.length
  writes := writes.length
  firstLine := (reads ++ writes).min?
  lastLine := (reads ++ writes).max?

def pouStatistics (flow : PouFlow) : List VariableStatistics :=
  flow.uses.values.map fun info =>
    statistics info.name info.scope flow.file (some flow.pouName) info.uses info.definitions

def pouUnused (flow : PouFlow) : List UnusedVariable :=
  (flow.uses.values.filter fun info =>
    isUnused info.scope info.uses.length info.definitions.length).map fun info =>
      { name := info.name, scope := info.scope, dataType := info.dataType, file := flow.file
        pouName := some flow.pouName, declaredLine := info.declaredLine
        assigned := !info.definitions.isEmpty }

def pouUninitialized (flow : PouFlow) : List UninitializedVariable :=
  flow.uninitializedReads.map fun read =>
    { name := read.name, file := flow.file, pouName := flow.pouName
      declaredLine := read.declaredLine, firstUseLine := read.line }

/-- Lines recorded for a name in any letter case. -/
def linesOf (table : Table String (List Nat)) (key : String) : List Nat :=
  (table.entries.filter fun entry => Text.upper entry.1 == key).flatMap Prod.snd

/-- The unit declares the name as an external variable. -/
def external? (flow : PouFlow) (key : String) : Option DefUse :=
  (flow.uses.find? key).filter fun info => info.scope == .external

/-- Where the units read a global, directly or through VAR_EXTERNAL. -/
def globalReads (flows : List PouFlow) (key : String) : List Nat :=
  flows.flatMap fun flow =>
    linesOf flow.externalReads key ++ ((external? flow key).map (·.uses)).getD []

/-- Where the units write a global. -/
def globalWrites (flows : List PouFlow) (key : String) : List Nat :=
  flows.flatMap fun flow =>
    linesOf flow.externalWrites key ++ ((external? flow key).map (·.definitions)).getD []

/-- The declared globals with their files. -/
def globals (trees : List Tree) : List (String × VarDecl Mark) :=
  trees.flatMap fun tree => tree.globalLists.flatMap fun list =>
    list.decls.map fun decl => (tree.file, decl)

def globalStatistics (flows : List PouFlow) (file : String) (decl : VarDecl Mark) :
    VariableStatistics :=
  let key := Text.upper decl.name
  statistics decl.name .global file none (globalReads flows key) (globalWrites flows key)

def globalUnused? (flows : List PouFlow) (file : String) (decl : VarDecl Mark) :
    Option UnusedVariable :=
  let key := Text.upper decl.name
  if (globalReads flows key).isEmpty then
    some {
      name := decl.name, scope := .global, dataType := decl.dataType, file, pouName := none
      declaredLine := decl.tag.line, assigned := !(globalWrites flows key).isEmpty }
  else none

/-- Upper-cased names of what the units call, and of the entry points. -/
def calledNames (flows : List PouFlow) (entryPoints : List String) : List String :=
  (flows.flatMap fun flow => flow.calls.map fun site => Text.upper site.callee) ++
    entryPoints.map Text.upper

def unusedFunction (file : String) (pou : Pou Mark) : DeadCode where
  kind := .unusedFunction
  file := file
  pouName := pou.name
  startLine := pou.tag.span.startLine
  endLine := pou.tag.span.endLine
  description := s!"FUNCTION {pou.name} is never called"

/-- Functions that are not called, by file and line. -/
def unusedFunctions (trees : List Tree) (flows : List PouFlow) (entryPoints : List String) :
    List DeadCode :=
  let called := calledNames flows entryPoints
  let uncalled := trees.flatMap fun tree =>
    (tree.pous.filter fun pou => pou.isFunction && !called.contains (Text.upper pou.name)).map
      fun pou => (Pair.mk tree.file pou.tag.line, unusedFunction tree.file pou)
  (Table.ofList uncalled).values

/-- The result for files whose data flow is known. -/
def summarize (options : Options) (project : String) (trees : List Tree)
    (flows : List PouFlow) (filesAnalyzed : Nat) : Analysis :=
  let incomplete := decide (filesAnalyzed < trees.length)
  let whole := !incomplete && !options.perFile
  let declared := if whole then globals trees else []
  { project
    unused := flows.flatMap pouUnused ++
      declared.filterMap fun (file, decl) => globalUnused? flows file decl
    uninitialized := flows.flatMap pouUninitialized
    deadCode := flows.flatMap (·.deadCode) ++
      if whole then unusedFunctions trees flows options.entryPoints else []
    usage := flows.flatMap pouStatistics ++
      declared.map fun (file, decl) => globalStatistics flows file decl
    filesAnalyzed
    incomplete }

/-- Analyses the files one by one. A run that is cancelled at its start analyses none. -/
def analyze (options : Options) (project : String) (trees : List Tree) (cancelled : Bool) :
    Except Fault Analysis := do
  let analysed := if cancelled then [] else trees
  let flows ← analysed.mapM (analyzeTree options.strict)
  return summarize options project trees flows.flatten analysed.length

/-- Analyses the files side by side. -/
def analyzeBeside (options : Options) (project : String) {trees : List Tree}
    (schedule : Schedule trees) : Except Fault Analysis := do
  let flows ← schedule.collect (analyzeTree options.strict)
  return summarize options project trees flows.flatten trees.length

namespace Analysis

def totalIssues (analysis : Analysis) : Nat :=
  analysis.unused.length + analysis.uninitialized.length + analysis.deadCode.length

def usageOf? (analysis : Analysis) (name : String) : Option VariableStatistics :=
  analysis.usage.find? fun statistics => Text.sameName statistics.name name

private def unusedIssue (v : UnusedVariable) : Issue :=
  let owner := v.pouName.getD "global variable list"
  let issue : Issue := {
    ruleId := "VAR001", severity := .warning, category := "Code Quality"
    title := if v.assigned then "Variable assigned but never read" else "Unused variable"
    description := s!"{v.name} ({v.scope.keyword}, {v.dataType}) in {owner} is never read"
    whyDangerous := "Unused declarations hide typos and leftovers from removed logic."
    recommendation := s!"Remove {v.name} or use it" }
  issue.placed v.file v.declaredLine

private def uninitializedIssue (v : UninitializedVariable) : Issue :=
  let issue : Issue := {
    ruleId := "VAR002", severity := .critical, category := "Initialization"
    title := "Variable read before assignment"
    description := s!"{v.name} (declared at line {v.declaredLine}) in {v.pouName} is read at " ++
      s!"line {v.firstUseLine} on a path without an assignment"
    whyDangerous :=
      "Reading an unassigned pointer or reference dereferences whatever the memory holds."
    recommendation :=
      s!"Assign {v.name} before its first use or initialise it in the declaration" }
  issue.placed v.file v.firstUseLine

private def deadTitle : DeadKind → String
  | .unreachable => "Unreachable code"
  | .alwaysFalse => "Condition is always FALSE"
  | .alwaysTrue => "Branch hidden by an always TRUE condition"
  | .unusedFunction => "Function is never called"

private def deadIssue (d : DeadCode) : Issue :=
  let issue : Issue := {
    ruleId := "DEAD001", severity := .warning, category := "Code Quality"
    title := deadTitle d.kind
    description := s!"{d.pouName} (lines {d.startLine}-{d.endLine}): {d.description}"
    whyDangerous := "Code that can never run misleads readers about what the controller does."
    recommendation := "Remove the dead code or fix the condition that hides it." }
  issue.placed d.file d.startLine

/-- The findings as issues. -/
def issues (analysis : Analysis) : List Issue :=
  analysis.unused.map unusedIssue ++ analysis.uninitialized.map uninitializedIssue ++
    analysis.deadCode.map deadIssue

end Analysis

end PlcAudit.Usage
