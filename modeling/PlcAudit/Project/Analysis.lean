import PlcAudit.Metrics
import PlcAudit.Project.Result
import PlcAudit.Review.Engine

/-!
Running the analyses of a project: two of the library itself, and two by tools outside it. The
analyses are independent of one another, and run one after another or side by side; their results
are joined in a fixed order. A failure is noted, or ends the run, as the options say.
-/

namespace PlcAudit.Project

open Code PlcAudit.Graph

/-- Why a tool outside the library gave no report. -/
inductive ExternalFailure where
  /-- The tool broke down, with a text or without one. -/
  | crashed (message : Option String)
  /-- The tool gave up. Contexts were added from the inside to the outside. -/
  | refused (message : String) (contexts : List String)
  deriving DecidableEq, Inhabited, Repr

def ExternalFailure.text : ExternalFailure → String
  | .crashed message => message.getD Review.unexplained
  | .refused message contexts => Text.joined ": " (contexts.reverse ++ [message])

/-- A tool outside the library. -/
structure External where
  run : String → List Tree → Except ExternalFailure ExternalReport
  /-- The tool cancels the run that it is part of. -/
  cancels : Bool := false

/-- What to run. -/
structure Plan where
  options : Options := {}
  compiler : Option External := none
  ioMapping : Option External := none
  /-- Functions that are called from outside the project. -/
  entryPoints : List String := []

/-- One analysis of a run: what it puts into the result, or why it fails. -/
structure Stage where
  name : String
  outcome : Except String (Result → Result)
  cancels : Bool := false

/-- The orders in which the files of a project finish in the analyses of the library. -/
structure FileTiming (trees : List Tree) where
  usage : Schedule trees
  dependencies : Schedule trees

namespace Plan

def usageOptions (plan : Plan) : Usage.Options :=
  { strict := plan.options.strict, entryPoints := plan.entryPoints }

def externalStage (name : String) (tool : External) (project : String) (trees : List Tree)
    (store : ExternalReport → Result → Result) : Stage :=
  { name
    outcome := (tool.run project trees).map store |>.mapError ExternalFailure.text
    cancels := tool.cancels }

/-- Stands for the text of a breakdown inside the library. -/
def brokenDown : String := "<panic>"

def builtInStage {α : Type} (name : String) (outcome : Except Fault α)
    (store : α → Result → Result) : Stage :=
  { name, outcome := (outcome.map store).mapError fun _ => brokenDown }

/-- The stages of a run in the order in which their results are joined. `beside` tells in which
orders the files finish if an analysis of the library works on them side by side. -/
def stages (plan : Plan) (project : String) (trees : List Tree)
    (beside : Option (FileTiming trees)) : List Stage :=
  let options := plan.options
  (if options.compilation then plan.compiler.toList.map fun tool =>
    externalStage "compilation" tool project trees
      fun report result => { result with compilation := some report } else []) ++
  (if options.usage then
    [builtInStage "variable_usage" (match beside with
        | none => Usage.analyze plan.usageOptions project trees false
        | some files => Usage.analyzeBeside plan.usageOptions project files.usage)
      fun found result => { result with usage := some found }] else []) ++
  (if options.dependencies then
    [builtInStage "dependencies" (match beside with
        | none => Graph.analyze trees false
        | some files => Graph.analyzeBeside files.dependencies)
      fun found result => { result with dependencies := some found }] else []) ++
  (if options.ioMapping then plan.ioMapping.toList.map fun tool =>
    externalStage "io_mapping" tool project trees
      fun report result => { result with ioMapping := some report } else [])

end Plan

/-- Where a run stands. -/
structure RunState where
  result : Result
  metrics : Metrics := {}
  cancelled : Bool := false

namespace RunState

/-- Puts what came of a stage into the result. -/
def store (state : RunState) (stage : Stage) : RunState :=
  match stage.outcome with
  | .ok store => { state with result := store state.result }
  | .error message =>
    { state with
      result := { state.result with
        failures := state.result.failures ++ [⟨stage.name, message⟩] }
      metrics := state.metrics.recordFailure }

/-- Runs one stage, unless the run is cancelled. -/
def next (state : RunState) (stage : Stage) : RunState :=
  if state.cancelled then state
  else
    { state with
      metrics := state.metrics.recordDuration stage.name 0
      cancelled := stage.cancels }.store stage

end RunState

/-- Runs stages up to the first failure. -/
def runToFailure : RunState → List Stage → RunState
  | state, [] => state
  | state, stage :: rest =>
    let next := state.next stage
    if next.result.failures.isEmpty then runToFailure next rest else next

/-- Runs stages one after another. A failure may end the run. -/
def runInTurn (options : Options) (state : RunState) (stages : List Stage) : RunState :=
  if options.continueOnError then stages.foldl RunState.next state else runToFailure state stages

/-- Stages that run side by side: those that were started, in their slots. -/
structure Started where
  slots : Table Nat Stage := .empty
  metrics : Metrics
  cancelled : Bool

/-- Runs one more stage, unless the run is cancelled. -/
def Started.next (started : Started) (entry : Stage × Nat) : Started :=
  if started.cancelled then started
  else
    { slots := started.slots.insert entry.2 entry.1
      metrics := started.metrics.recordDuration entry.1.name 0
      cancelled := entry.1.cancels }

/-- Runs stages side by side. What comes of them is joined when all have finished, in the order in
which they are listed. -/
def runBeside (state : RunState) {stages : List Stage} (schedule : Schedule stages) : RunState :=
  let started := schedule.finished.foldl Started.next
    { metrics := state.metrics, cancelled := state.cancelled }
  started.slots.values.foldl RunState.store
    { state with metrics := started.metrics, cancelled := started.cancelled }

/-- Completes a run: notes whether it was stopped, and counts its files. -/
def RunState.finished (state : RunState) (fileCount : Nat) : RunState :=
  let incomplete := state.result.usage.any (·.incomplete) ||
    state.result.dependencies.any (·.incomplete)
  { state with
    result := { state.result with completed := true, cancelled := state.cancelled || incomplete }
    metrics := (fileCount.repeat Metrics.recordFile state.metrics).recordDuration "orchestrator" 0 }

/-- What a run comes to: its first failure if that ends it, or its result. -/
def RunState.concluded (state : RunState) (options : Options) (fileCount : Nat) :
    Except AnalysisError Result × Metrics :=
  match options.continueOnError, state.result.failures with
  | false, failure :: _ => (.error (.failed failure), state.metrics)
  | _, _ =>
    let state := state.finished fileCount
    (.ok state.result, state.metrics)

namespace Plan

/-- The orders in which the stages of a run, and the files in them, finish side by side. -/
structure Timing (plan : Plan) (project : String) (trees : List Tree) where
  files : FileTiming trees
  stages : Schedule (plan.stages project trees (some files))

/-- Everything finishes in the order in which it is listed. -/
def Timing.inOrder (plan : Plan) (project : String) (trees : List Tree) :
    plan.Timing project trees :=
  ⟨⟨.inOrder trees, .inOrder trees⟩, .inOrder _⟩

/-- Analyses a project side by side. -/
def runParallel (plan : Plan) {project : String} {trees : List Tree}
    (timing : plan.Timing project trees) (cancelled : Bool) :
    Except AnalysisError Result × Metrics :=
  (runBeside { result := { project }, cancelled } timing.stages).concluded plan.options trees.length

/-- Analyses a project. The counters are those of this run, also when it ends with an error. -/
def run (plan : Plan) (project : String) (trees : List Tree) (cancelled : Bool) :
    Except AnalysisError Result × Metrics :=
  if plan.options.parallel then plan.runParallel (.inOrder plan project trees) cancelled
  else
    (runInTurn plan.options { result := { project }, cancelled }
      (plan.stages project trees none)).concluded plan.options trees.length

end Plan

/-- The findings of one file on its own. -/
structure FileAnalysis where
  file : String
  usage : Usage.Analysis
  dependencies : Dependencies

structure FileBatch where
  results : List FileAnalysis := []
  total : Nat := 0
  cancelled : Bool := false

/-- Fails for a batch that was stopped. -/
def FileBatch.ensureComplete (batch : FileBatch) : Except AnalysisError Unit :=
  if batch.cancelled then .error (.cancelled batch.results.length batch.total) else .ok ()

namespace Plan

def analyzeFile (plan : Plan) (tree : Tree) : Except Fault FileAnalysis := do
  let usage ← Usage.analyze { plan.usageOptions with perFile := true } tree.file [tree] false
  let dependencies ← Graph.analyze [tree] false
  return { file := tree.file, usage, dependencies }

/-- Analyses each file on its own. What needs the whole project is left out. A run that is cancelled
at its start analyses no file. -/
def analyzeFiles (plan : Plan) (trees : List Tree) (cancelled : Bool) :
    Except Fault (FileBatch × Metrics) := do
  let stopped := cancelled && !trees.isEmpty
  let results ← if stopped then pure [] else trees.mapM plan.analyzeFile
  return ({ results, total := trees.length, cancelled := stopped },
    results.length.repeat Metrics.recordFile {})

end Plan

end PlcAudit.Project
