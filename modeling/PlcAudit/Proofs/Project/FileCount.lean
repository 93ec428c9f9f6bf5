import Mathlib.Data.List.TakeWhile
import PlcAudit.Proofs.Project.Parallel

/-!
The counter of analysed files. At its end a run counts all files of its project, whatever its
analyses have worked on. Others may cancel the run at any time, so an analysis may be left out or be
stopped between files. The counter is then right only if there are no files, or if one of the
analyses is there and has worked on all of them. Analysing files on their own counts those that are
finished.
-/

namespace PlcAudit

open Code

/-! Analyses that are stopped between files -/

/-- The files that are worked on, where the others are found stopped when they are due. -/
def workedOn (stopped : Nat → Bool) (trees : List Tree) : List Tree :=
  (trees.zipIdx.filter fun entry => !stopped entry.2).map Prod.fst

theorem workedOn_const (cancelled : Bool) (trees : List Tree) :
    workedOn (fun _ => cancelled) trees = if cancelled then [] else trees := by
  cases cancelled <;> simp [workedOn]

/-- The files that are worked on up to the first that is found stopped. -/
def workedOnBefore (stopped : Nat → Bool) (trees : List Tree) : List Tree :=
  (trees.zipIdx.takeWhile fun entry => !stopped entry.2).map Prod.fst

theorem workedOnBefore_const (cancelled : Bool) (trees : List Tree) :
    workedOnBefore (fun _ => cancelled) trees = if cancelled then [] else trees := by
  cases cancelled with
  | true => cases trees <;> rfl
  | false =>
    have whole : trees.zipIdx.takeWhile (fun _ => true) = trees.zipIdx :=
      List.takeWhile_eq_self_iff.mpr fun _ _ => rfl
    exact (congrArg (List.map Prod.fst) whole).trans (List.zipIdx_map_fst ..)

theorem length_workedOn_le (stopped : Nat → Bool) (trees : List Tree) :
    (workedOn stopped trees).length ≤ trees.length := by
  rw [workedOn, List.length_map]
  exact (List.length_filter_le ..).trans_eq List.length_zipIdx

theorem length_workedOn_eq_iff (stopped : Nat → Bool) (trees : List Tree) :
    (workedOn stopped trees).length = trees.length ↔
      ∀ position < trees.length, stopped position = false := by
  have zipped : trees.zipIdx.length = trees.length := List.length_zipIdx
  rw [workedOn, List.length_map, ← zipped, List.length_filter_eq_length_iff, zipped]
  constructor
  · intro all position below
    simpa using all _ (List.mk_mem_zipIdx_iff_getElem?.mpr (List.getElem?_eq_getElem below))
  · intro all entry member
    have below := (List.getElem?_eq_some_iff.mp (List.mem_zipIdx_iff_getElem?.mp member)).1
    simpa using all entry.2 below

/-- The analysis of variables where it is stopped at some files. -/
def Usage.analyzeUntil (options : Options) (project : String) (trees : List Tree)
    (stopped : Nat → Bool) : Except Fault Analysis := do
  let flows ← (workedOn stopped trees).mapM (Flow.analyzeTree options.strict)
  return summarize options project trees flows.flatten (workedOn stopped trees).length

/-- The analysis of dependencies where it is stopped at some files. -/
def Graph.analyzeUntil (trees : List Tree) (stopped : Nat → Bool) : Except Fault Dependencies := do
  let declared := declaredGraph trees
  let kindOf := fun name => (declared.node? name).map Entity.kind
  let fragments ← (workedOn stopped trees).mapM (fragment kindOf)
  return .ofFragments trees fragments (workedOn stopped trees).length

theorem Usage.analyzeUntil_const (options : Options) (project : String) (trees : List Tree)
    (cancelled : Bool) :
    analyzeUntil options project trees (fun _ => cancelled) =
      analyze options project trees cancelled := by
  rw [analyzeUntil, workedOn_const]
  rfl

theorem Graph.analyzeUntil_const (trees : List Tree) (cancelled : Bool) :
    analyzeUntil trees (fun _ => cancelled) = analyze trees cancelled := by
  rw [analyzeUntil, workedOn_const]
  rfl

theorem Usage.filesAnalyzed_of_analyzeUntil {options : Options} {project : String}
    {trees : List Tree} {stopped : Nat → Bool} {found : Analysis}
    (done : analyzeUntil options project trees stopped = .ok found) :
    found.filesAnalyzed = (workedOn stopped trees).length := by
  obtain ⟨flows, -, done⟩ := Graph.exists_ok_of_bind done
  cases done
  rfl

theorem Graph.filesAnalyzed_of_analyzeUntil {trees : List Tree} {stopped : Nat → Bool}
    {found : Dependencies} (done : analyzeUntil trees stopped = .ok found) :
    found.filesAnalyzed = (workedOn stopped trees).length := by
  obtain ⟨fragments, -, done⟩ := exists_ok_of_bind done
  cases done
  rfl

namespace Project

/-! Runs that are watched -/

/-- What a run sees of its token, which others may cancel at any time. -/
structure Watch where
  /-- The token is cancelled when the file at a position is due in the analysis of variables. -/
  usage : Nat → Bool := fun _ => false
  /-- The token is cancelled when the file at a position is due in the analysis of dependencies. -/
  dependencies : Nat → Bool := fun _ => false
  /-- The token is cancelled when the stages behind the one of a name are due. -/
  behind : String → Bool := fun _ => false

namespace Plan

variable (plan : Plan) (watch : Watch) (project : String) (trees : List Tree)

/-- The stages of a run whose analyses come to the given outcomes. -/
def stagesOf (usage : Except Fault Usage.Analysis)
    (dependencies : Except Fault Graph.Dependencies) : List Stage :=
  (if plan.options.compilation then plan.compiler.toList.map fun tool =>
    externalStage "compilation" tool project trees
      fun report result => { result with compilation := some report } else []) ++
  (if plan.options.usage then
    [builtInStage "variable_usage" usage
      fun found result => { result with usage := some found }] else []) ++
  (if plan.options.dependencies then
    [builtInStage "dependencies" dependencies
      fun found result => { result with dependencies := some found }] else []) ++
  (if plan.options.ioMapping then plan.ioMapping.toList.map fun tool =>
    externalStage "io_mapping" tool project trees
      fun report result => { result with ioMapping := some report } else [])

/-- The stages of a run under a watch. Which of the stages that are due find the token cancelled is
left to the watch, also where a tool cancels it. -/
def watchedStages : List Stage :=
  (plan.stagesOf project trees
    (Usage.analyzeUntil plan.usageOptions project trees watch.usage)
    (Graph.analyzeUntil trees watch.dependencies)).map fun stage =>
      { stage with cancels := watch.behind stage.name }

/-- Analyses a project under a watch, one stage after another. -/
def runWatched (cancelled : Bool) : Except AnalysisError Result × Metrics :=
  (runInTurn plan.options { result := { project }, cancelled }
    (plan.watchedStages watch project trees)).concluded plan.options trees.length

/-- Analyses a project under a watch, with the stages side by side. -/
def runWatchedBeside {project : String} {trees : List Tree}
    (schedule : Schedule (plan.watchedStages watch project trees)) (cancelled : Bool) :
    Except AnalysisError Result × Metrics :=
  (runBeside { result := { project }, cancelled } schedule).concluded plan.options trees.length

/-- What a run sees of its token if nobody but its own tools cancels it. -/
def ownWatch : Watch where
  behind name :=
    (name == "compilation" && plan.compiler.any (·.cancels)) ||
      (name == "io_mapping" && plan.ioMapping.any (·.cancels))

theorem watchedStages_ownWatch :
    plan.watchedStages plan.ownWatch project trees = plan.stages project trees none := by
  have usage := Usage.analyzeUntil_const plan.usageOptions project trees false
  have dependencies := Graph.analyzeUntil_const trees false
  rw [watchedStages, ownWatch, usage, dependencies]
  simp only [stagesOf, stages, List.map_append]
  cases plan.compiler <;> cases plan.ioMapping <;>
    simp [apply_ite (List.map _), externalStage, builtInStage]

end Plan

/-! What becomes of results and counters -/

/-- The number of files that an analysis of the library worked on, the greater one if there are
two. -/
def Result.filesProcessed (result : Result) : Nat :=
  max ((result.usage.map (·.filesAnalyzed)).getD 0)
    ((result.dependencies.map (·.filesAnalyzed)).getD 0)

/-- The analyses in a result say how many files they worked on under a watch. -/
structure Result.Tells (result : Result) (watch : Watch) (trees : List Tree) : Prop where
  usage : ∀ found ∈ result.usage, found.filesAnalyzed = (workedOn watch.usage trees).length
  dependencies : ∀ found ∈ result.dependencies,
    found.filesAnalyzed = (workedOn watch.dependencies trees).length

/-- With what a stage puts into it, a result still says how many files were worked on. -/
def Stage.Tells (stage : Stage) (watch : Watch) (trees : List Tree) : Prop :=
  ∀ store, stage.outcome = .ok store → ∀ result : Result, result.Tells watch trees →
    (store result).Tells watch trees

/-- A run whose analyses say what they worked on, and that has not counted any file. -/
structure RunState.Uncounted (state : RunState) (watch : Watch) (trees : List Tree) : Prop where
  tells : state.result.Tells watch trees
  files : state.metrics.filesAnalyzed = 0

section

variable {plan : Plan} {watch : Watch} {project : String} {trees : List Tree}

theorem Plan.stored_of_external {name : String} {tool : External}
    {put : ExternalReport → Result → Result} {store : Result → Result}
    (done : (externalStage name tool project trees put).outcome = .ok store) :
    ∃ report, store = put report := by
  cases ran : tool.run project trees with
  | error failure => simp [externalStage, ran, Except.map, Except.mapError] at done
  | ok report =>
    simp only [externalStage, ran, Except.map, Except.mapError, Except.ok.injEq] at done
    exact ⟨report, done.symm⟩

theorem Plan.stored_of_builtIn {α : Type} {name : String} {outcome : Except Fault α}
    {put : α → Result → Result} {store : Result → Result}
    (done : (builtInStage name outcome put).outcome = .ok store) :
    ∃ found, outcome = .ok found ∧ store = put found := by
  cases outcome with
  | error fault => cases done
  | ok found => exact ⟨found, rfl, (Except.ok.inj done).symm⟩

theorem Plan.stagesOf_tell : ∀ stage ∈ plan.stagesOf project trees
      (Usage.analyzeUntil plan.usageOptions project trees watch.usage)
      (Graph.analyzeUntil trees watch.dependencies), stage.Tells watch trees := by
  intro stage member store done result tells
  simp only [stagesOf, List.mem_append, List.mem_ite_nil_right, List.mem_map, Option.mem_toList,
    List.mem_singleton] at member
  -- A tool touches neither analysis of the library, and these touch only their own place.
  rcases member with ((⟨-, tool, -, rfl⟩ | ⟨-, rfl⟩) | ⟨-, rfl⟩) | ⟨-, tool, -, rfl⟩
  · obtain ⟨report, rfl⟩ := stored_of_external done
    exact ⟨tells.usage, tells.dependencies⟩
  · obtain ⟨found, ran, rfl⟩ := stored_of_builtIn done
    refine ⟨?_, tells.dependencies⟩
    rintro _ ⟨⟩
    exact Usage.filesAnalyzed_of_analyzeUntil ran
  · obtain ⟨found, ran, rfl⟩ := stored_of_builtIn done
    refine ⟨tells.usage, ?_⟩
    rintro _ ⟨⟩
    exact Graph.filesAnalyzed_of_analyzeUntil ran
  · obtain ⟨report, rfl⟩ := stored_of_external done
    exact ⟨tells.usage, tells.dependencies⟩

theorem Plan.watchedStages_tell :
    ∀ stage ∈ plan.watchedStages watch project trees, stage.Tells watch trees := by
  intro stage member
  obtain ⟨inner, listed, rfl⟩ := List.mem_map.mp member
  exact stagesOf_tell inner listed

namespace RunState.Uncounted

variable {state : RunState}

theorem start (project : String) (cancelled : Bool) :
    RunState.Uncounted { result := { project }, cancelled } watch trees where
  tells := ⟨nofun, nofun⟩
  files := rfl

theorem store (uncounted : state.Uncounted watch trees) {stage : Stage}
    (tells : stage.Tells watch trees) : (state.store stage).Uncounted watch trees := by
  cases outcome : stage.outcome with
  | ok store =>
    rw [RunState.store, outcome]
    exact ⟨tells store outcome _ uncounted.tells, uncounted.files⟩
  | error message =>
    rw [RunState.store, outcome]
    exact ⟨⟨uncounted.tells.usage, uncounted.tells.dependencies⟩, uncounted.files⟩

theorem next (uncounted : state.Uncounted watch trees) {stage : Stage}
    (tells : stage.Tells watch trees) : (state.next stage).Uncounted watch trees := by
  rw [RunState.next]
  split
  · exact uncounted
  · have timed : RunState.Uncounted { state with
        metrics := state.metrics.recordDuration stage.name 0, cancelled := stage.cancels }
        watch trees := ⟨uncounted.tells, uncounted.files⟩
    exact timed.store tells

theorem inTurn (uncounted : state.Uncounted watch trees) (options : Options) {stages : List Stage}
    (tells : ∀ stage ∈ stages, stage.Tells watch trees) :
    (runInTurn options state stages).Uncounted watch trees := by
  rw [runInTurn]
  split
  · exact List.foldlRecOn (motive := (Uncounted · watch trees)) _ _ uncounted
      fun _ known stage member => known.next (tells stage member)
  · induction stages generalizing state with
    | nil => exact uncounted
    | cons stage rest ih =>
      obtain ⟨first, later⟩ := List.forall_mem_cons.mp tells
      rw [runToFailure]
      split
      · exact ih (uncounted.next first) later
      · exact uncounted.next first

end RunState.Uncounted

/-- Stages that were started tell what they worked on, and have not counted any file. -/
structure Started.Uncounted (started : Started) (watch : Watch) (trees : List Tree) : Prop where
  tells : started.slots.All fun _ stage => stage.Tells watch trees
  files : started.metrics.filesAnalyzed = 0

theorem Started.Uncounted.next {started : Started} (uncounted : started.Uncounted watch trees)
    {entry : Stage × Nat} (tells : entry.1.Tells watch trees) :
    (started.next entry).Uncounted watch trees := by
  rw [Started.next]
  split
  · exact uncounted
  · exact ⟨uncounted.tells.alter tells, uncounted.files⟩

theorem RunState.Uncounted.beside {state : RunState} (uncounted : state.Uncounted watch trees)
    {stages : List Stage} (tells : ∀ stage ∈ stages, stage.Tells watch trees)
    (schedule : Schedule stages) : (runBeside state schedule).Uncounted watch trees := by
  have started : Started.Uncounted (schedule.finished.foldl Started.next
      { metrics := state.metrics, cancelled := state.cancelled }) watch trees := by
    refine List.foldlRecOn (motive := (Started.Uncounted · watch trees)) _ _
      ⟨Table.all_empty, uncounted.files⟩ fun _ known entry member => ?_
    have listed := List.fst_mem_of_mem_zipIdx (schedule.complete.mem_iff.mp member)
    exact known.next (tells entry.1 listed)
  refine List.foldlRecOn (motive := (RunState.Uncounted · watch trees)) _ _
    ⟨uncounted.tells, started.files⟩ fun _ known stage member => ?_
  obtain ⟨slot, found⟩ := (Table.mem_values_iff _ stage).mp member
  exact known.store (started.tells slot stage found)

end

/-! Runs that come to a result -/

theorem filesAnalyzed_repeat (count : Nat) (metrics : Metrics) :
    (count.repeat Metrics.recordFile metrics).filesAnalyzed = metrics.filesAnalyzed + count := by
  induction count with
  | zero => rfl
  | succ count ih => rw [Nat.repeat, Metrics.recordFile, ih, Nat.add_assoc]

/-- A run that comes to a result counts all files. Its analyses have worked on no more than that,
and one of them on as many only if there are no files, or if one is there that was not stopped at
any file. -/
structure CountsAll (watch : Watch) (trees : List Tree) (result : Result) (metrics : Metrics) :
    Prop where
  counted : metrics.filesAnalyzed = trees.length
  tells : result.Tells watch trees
  enough : result.filesProcessed ≤ metrics.filesAnalyzed
  exact : metrics.filesAnalyzed = result.filesProcessed ↔ trees = [] ∨
    (result.usage.isSome ∧ ∀ position < trees.length, watch.usage position = false) ∨
    (result.dependencies.isSome ∧ ∀ position < trees.length, watch.dependencies position = false)

/-- An analysis that may be missing worked on all files only if there are none, or if it is there
and was not stopped at any. -/
theorem processed_le_and_eq_iff {α : Type} (trees : List Tree) {found : Option α} {files : α → Nat}
    {stopped : Nat → Bool} (tells : ∀ some ∈ found, files some = (workedOn stopped trees).length) :
    (found.map files).getD 0 ≤ trees.length ∧
    ((found.map files).getD 0 = trees.length ↔
      trees = [] ∨ found.isSome ∧ ∀ position < trees.length, stopped position = false) := by
  cases found with
  | none =>
    have nothing : 0 = trees.length ↔ trees = [] := eq_comm.trans List.length_eq_zero_iff
    refine ⟨Nat.zero_le _, ?_⟩
    rw [Option.map_none, Option.getD_none, nothing]
    simp
  | some value =>
    have worked : ((some value).map files).getD 0 = (workedOn stopped trees).length :=
      tells value rfl
    rw [worked, length_workedOn_eq_iff]
    refine ⟨length_workedOn_le stopped trees, fun all => .inr ⟨rfl, all⟩, ?_⟩
    rintro (rfl | ⟨-, all⟩)
    · exact nofun
    · exact all

theorem Result.Tells.countsAll {result : Result} {watch : Watch} {trees : List Tree}
    {metrics : Metrics} (tells : result.Tells watch trees)
    (counted : metrics.filesAnalyzed = trees.length) : CountsAll watch trees result metrics := by
  obtain ⟨usageLe, usageEq⟩ := processed_le_and_eq_iff trees tells.usage
  obtain ⟨dependenciesLe, dependenciesEq⟩ := processed_le_and_eq_iff trees tells.dependencies
  refine ⟨counted, tells, ?_, ?_⟩
  · rw [counted, filesProcessed]
    exact Nat.max_le.mpr ⟨usageLe, dependenciesLe⟩
  · -- Neither analysis goes beyond all files, so the greater number reaches them if one does.
    have reached {first second whole : Nat} (one : first ≤ whole) (other : second ≤ whole) :
        whole = max first second ↔ first = whole ∨ second = whole := by omega
    rw [or_or_distrib_left, ← usageEq, ← dependenciesEq, counted, filesProcessed]
    exact reached usageLe dependenciesLe

theorem RunState.Uncounted.counted {state : RunState} {watch : Watch} {trees : List Tree}
    (uncounted : state.Uncounted watch trees) :
    (state.finished trees.length).metrics.filesAnalyzed = trees.length := by
  rw [RunState.finished, Metrics.recordDuration]
  exact (filesAnalyzed_repeat ..).trans (by rw [uncounted.files, Nat.zero_add])

theorem RunState.Uncounted.concluded {state : RunState} {watch : Watch} {trees : List Tree}
    (uncounted : state.Uncounted watch trees) {options : Options} {result : Result}
    {metrics : Metrics}
    (done : state.concluded options trees.length = (.ok result, metrics)) :
    CountsAll watch trees result metrics := by
  have tells : (state.finished trees.length).result.Tells watch trees :=
    ⟨uncounted.tells.usage, uncounted.tells.dependencies⟩
  unfold RunState.concluded at done
  split at done
  · cases done
  · cases done
    exact tells.countsAll uncounted.counted

/-! Runs that are cancelled at their start -/

theorem RunState.concluded_of_untroubled {state : RunState}
    (untroubled : state.result.failures = []) (options : Options) (fileCount : Nat) :
    state.concluded options fileCount =
      (.ok (state.finished fileCount).result, (state.finished fileCount).metrics) := by
  rw [RunState.concluded, untroubled]
  cases options.continueOnError <;> rfl

theorem runInTurn_cancelled (options : Options) {state : RunState} (cancelled : state.cancelled)
    (stages : List Stage) : runInTurn options state stages = state := by
  have next (stage : Stage) : state.next stage = state := by rw [RunState.next, if_pos cancelled]
  rw [runInTurn]
  split
  · exact List.foldl_fixed' next stages
  · induction stages with
    | nil => rfl
    | cons stage rest ih => rw [runToFailure, next, ih, ite_self]

theorem runBeside_cancelled {state : RunState} (cancelled : state.cancelled) {stages : List Stage}
    (schedule : Schedule stages) : runBeside state schedule = state := by
  have next (entry : Stage × Nat) :
      Started.next { metrics := state.metrics, cancelled := state.cancelled } entry =
        { metrics := state.metrics, cancelled := state.cancelled } := by
    rw [Started.next, if_pos cancelled]
  rw [runBeside, List.foldl_fixed' next]
  rfl

namespace Plan

/-- A run that is cancelled at its start comes to a result, has worked on no file, and counts all of
them. -/
theorem run_cancelled (plan : Plan) (project : String) (trees : List Tree) :
    ∃ result metrics, plan.run project trees true = (.ok result, metrics) ∧
      result.filesProcessed = 0 ∧ metrics.filesAnalyzed = trees.length := by
  have uncounted : RunState.Uncounted { result := { project }, cancelled := true } {} trees :=
    .start project true
  have ran : plan.run project trees true =
      RunState.concluded { result := { project }, cancelled := true } plan.options
        trees.length := by
    rw [run, runParallel, runBeside_cancelled rfl, runInTurn_cancelled _ rfl, ite_self]
  exact ⟨_, _, ran.trans (RunState.concluded_of_untroubled rfl ..), rfl, uncounted.counted⟩

/-- If nobody else cancels them, runs are those of a watch that sees only their own tools. -/
theorem runParallel_eq_watched (plan : Plan) {project : String} {trees : List Tree}
    (timing : plan.Timing project trees) (cancelled : Bool) :
    ∃ schedule : Schedule (plan.watchedStages plan.ownWatch project trees),
      plan.runParallel timing cancelled =
        plan.runWatchedBeside plan.ownWatch schedule cancelled := by
  obtain ⟨files, schedule⟩ := timing
  -- The order in which files finish does not show in the stages, so the schedule is one of both.
  unfold runWatchedBeside
  rw [watchedStages_ownWatch, ← plan.stages_beside project trees files]
  exact ⟨schedule, rfl⟩

theorem run_eq_watched (plan : Plan) (project : String) (trees : List Tree) (cancelled : Bool) :
    (plan.inParallel false).run project trees cancelled =
      plan.runWatched plan.ownWatch project trees cancelled := by
  rw [runWatched, watchedStages_ownWatch]
  rfl

/-- Files on their own, where the batch is stopped as soon as one of the others is due. -/
def analyzeFilesUntil (plan : Plan) (trees : List Tree) (stopped : Nat → Bool) :
    Except Fault (FileBatch × Metrics) := do
  let finished := workedOnBefore stopped trees
  let results ← finished.mapM plan.analyzeFile
  return ({ results, total := trees.length, cancelled := finished.length != trees.length },
    results.length.repeat Metrics.recordFile {})

theorem analyzeFilesUntil_const (plan : Plan) (trees : List Tree) (cancelled : Bool) :
    plan.analyzeFilesUntil trees (fun _ => cancelled) = plan.analyzeFiles trees cancelled := by
  rw [analyzeFilesUntil, workedOnBefore_const]
  cases cancelled <;> cases trees <;> simp [analyzeFiles]

theorem filesAnalyzed_of_analyzeFilesUntil {plan : Plan} {trees : List Tree} {stopped : Nat → Bool}
    {batch : FileBatch} {metrics : Metrics}
    (done : plan.analyzeFilesUntil trees stopped = .ok (batch, metrics)) :
    metrics.filesAnalyzed = batch.results.length ∧
      batch.results.length = (workedOnBefore stopped trees).length := by
  obtain ⟨results, made, done⟩ := Graph.exists_ok_of_bind done
  cases done
  exact ⟨(filesAnalyzed_repeat ..).trans (Nat.zero_add _),
    (Graph.mapM_eq_ok_iff.mp made).length_eq.symm⟩

/-- A run that comes to a result counts all files, whichever of its analyses are there, whoever
cancels it, and whether it goes side by side or in turn. That is what its analyses have worked on
only if there are no files, or if one of them is there and was not stopped at any file; a run that
is cancelled at its start has worked on nothing. Files on their own are counted as they are
finished. -/
theorem run_counts_all_files (plan : Plan) (project : String) (trees : List Tree) :
    (∀ watch cancelled result metrics,
      plan.runWatched watch project trees cancelled = (.ok result, metrics) →
        CountsAll watch trees result metrics) ∧
    (∀ watch (schedule : Schedule (plan.watchedStages watch project trees)) cancelled
        result metrics,
      plan.runWatchedBeside watch schedule cancelled = (.ok result, metrics) →
        CountsAll watch trees result metrics) ∧
    (∀ cancelled, (plan.inParallel false).run project trees cancelled =
      plan.runWatched plan.ownWatch project trees cancelled) ∧
    (∀ (timing : plan.Timing project trees) cancelled,
      ∃ schedule : Schedule (plan.watchedStages plan.ownWatch project trees),
        plan.runParallel timing cancelled =
          plan.runWatchedBeside plan.ownWatch schedule cancelled) ∧
    (∃ result metrics, plan.run project trees true = (.ok result, metrics) ∧
      result.filesProcessed = 0 ∧ metrics.filesAnalyzed = trees.length) ∧
    (∀ cancelled,
      plan.analyzeFilesUntil trees (fun _ => cancelled) = plan.analyzeFiles trees cancelled) ∧
    ∀ stopped batch metrics, plan.analyzeFilesUntil trees stopped = .ok (batch, metrics) →
      metrics.filesAnalyzed = batch.results.length ∧
        batch.results.length = (workedOnBefore stopped trees).length := by
  refine ⟨?_, ?_, plan.run_eq_watched project trees, plan.runParallel_eq_watched,
    plan.run_cancelled project trees, plan.analyzeFilesUntil_const trees,
    fun _ _ _ => filesAnalyzed_of_analyzeFilesUntil⟩
  · intro watch cancelled result metrics done
    have start : RunState.Uncounted { result := { project }, cancelled } watch trees :=
      .start project cancelled
    exact (start.inTurn plan.options watchedStages_tell).concluded done
  · intro watch schedule cancelled result metrics done
    have start : RunState.Uncounted { result := { project }, cancelled } watch trees :=
      .start project cancelled
    exact (start.beside watchedStages_tell schedule).concluded done

/-- The analyses of the library in turn. -/
def plainPlan : Plan where
  options := { parallel := false }

/-- The run is cancelled while variables are analysed, when the second file is due. -/
def secondFileWatch : Watch where
  usage position := position != 0
  behind _ := true

theorem run_counts_all_files_secondFileWatch :
    ∃ result metrics,
      plainPlan.runWatched secondFileWatch "plant" Graph.mutualFiles false = (.ok result, metrics) ∧
      metrics.filesAnalyzed = 3 ∧ result.filesProcessed = 1 := by
  obtain ⟨result, metrics, done, present, absent⟩ : ∃ result metrics,
      plainPlan.runWatched secondFileWatch "plant" Graph.mutualFiles false = (.ok result, metrics) ∧
        result.usage.isSome ∧ result.dependencies = none := ⟨_, _, rfl, rfl, rfl⟩
  have all := (plainPlan.run_counts_all_files "plant" Graph.mutualFiles).1 _ _ _ _ done
  obtain ⟨found, usage⟩ := Option.isSome_iff_exists.mp present
  have one : found.filesAnalyzed = 1 := all.tells.usage found usage
  refine ⟨result, metrics, done, all.counted, ?_⟩
  rw [Result.filesProcessed, usage, absent]
  exact (Nat.max_zero _).trans one

/-- A file with one program. -/
def mainFile : Tree :=
  let roots := [.pou { tag := ⟨0, .lines 1 2⟩, kind := .program, name := "Main" }]
  { file := "main.st", source := "", roots, errors := []
    index := (ParentIndex.build roots).toOption.getD .empty }

/-- Cancelled at its start, a run counts its file all the same. -/
theorem cancelledRun_overcounted : ¬ ∀ (plan : Plan) project trees cancelled result metrics,
    plan.run project trees cancelled = (.ok result, metrics) →
      metrics.filesAnalyzed = result.filesProcessed := by
  intro counted
  have overcounted : 1 = 0 := counted {} "plant" [mainFile] true _ _ rfl
  exact Nat.one_ne_zero overcounted

end Plan

end Project

end PlcAudit
