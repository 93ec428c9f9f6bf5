import PlcAudit.Project.Session
import PlcAudit.Proofs.Data.Schedule

/-!
Analyses of a project side by side and one after another. The analyses of the library find the same
in whatever order the files finish, so both ways run the same stages. Where no stage cancels the
run, what both come to can be read off the stages: all results joined in order, or the first
failure.
-/

namespace PlcAudit

theorem bind_eq_ok_congr {ε α β : Type} {first second : Except ε α}
    (same : ∀ value, first = .ok value ↔ second = .ok value) (next : α → Except ε β) (result : β) :
    (first >>= next) = .ok result ↔ (second >>= next) = .ok result := by
  constructor
  · intro done
    obtain ⟨value, made, done⟩ := Graph.exists_ok_of_bind done
    rw [(same value).mp made]
    exact done
  · intro done
    obtain ⟨value, made, done⟩ := Graph.exists_ok_of_bind done
    rw [(same value).mpr made]
    exact done

theorem Usage.analyzeBeside_eq_ok_iff (options : Options) (project : String)
    {trees : List Code.Tree} (schedule : Schedule trees) (analysis : Analysis) :
    analyzeBeside options project schedule = .ok analysis ↔
      analyze options project trees false = .ok analysis :=
  bind_eq_ok_congr (schedule.collect_eq_ok_iff _) _ analysis

theorem Graph.analyzeBeside_eq_ok_iff {trees : List Code.Tree} (schedule : Schedule trees)
    (dependencies : Dependencies) :
    analyzeBeside schedule = .ok dependencies ↔ analyze trees false = .ok dependencies :=
  bind_eq_ok_congr (schedule.collect_eq_ok_iff _) _ dependencies

namespace Project

open Code

/-! The stages of a plan -/

/-- What is noted of a stage that fails. -/
def Stage.failure? (stage : Stage) : Option Failure :=
  match stage.outcome with
  | .ok _ => none
  | .error message => some ⟨stage.name, message⟩

/-- The result with what came of a stage. -/
def Stage.joined (result : Result) (stage : Stage) : Result :=
  match stage.outcome with
  | .ok store => store result
  | .error message => { result with failures := result.failures ++ [⟨stage.name, message⟩] }

/-- The stage neither cancels the run nor touches what is noted of others. -/
structure Stage.Plain (stage : Stage) : Prop where
  going : stage.cancels = false
  keeps : ∀ store, stage.outcome = .ok store → ∀ result, (store result).failures = result.failures

namespace Plan

theorem builtInStage_congr {α : Type} (name : String) {first second : Except Fault α}
    (same : ∀ value, first = .ok value ↔ second = .ok value) (store : α → Result → Result) :
    builtInStage name first store = builtInStage name second store := by
  cases first with
  | ok value => rw [(same value).mp rfl]
  | error fault =>
    cases second with
    | ok value => cases (same value).mpr rfl
    | error other => rfl

/-- Which file is the first to fail shows in no stage. -/
theorem stages_beside (plan : Plan) (project : String) (trees : List Tree)
    (files : FileTiming trees) :
    plan.stages project trees (some files) = plan.stages project trees none := by
  have usage := builtInStage_congr "variable_usage"
    (Usage.analyzeBeside_eq_ok_iff plan.usageOptions project files.usage)
  have dependencies := builtInStage_congr "dependencies"
    (Graph.analyzeBeside_eq_ok_iff files.dependencies)
  simp only [stages, usage, dependencies]

/-- The names of the stages in the order of their results. -/
def stageNames : List String :=
  ["compilation", "variable_usage", "dependencies", "io_mapping"]

theorem names_sublist_ite {selected : Bool} {stages : List Stage} {name : String}
    (named : (stages.map Stage.name).Sublist [name]) :
    ((if selected then stages else []).map Stage.name).Sublist [name] := by
  cases selected with
  | false => exact List.nil_sublist _
  | true => exact named

theorem names_sublist_tool (tool : Option External) (name project : String) (trees : List Tree)
    (store : ExternalReport → Result → Result) :
    ((tool.toList.map fun tool => externalStage name tool project trees store).map
      Stage.name).Sublist [name] := by
  cases tool with
  | none => exact List.nil_sublist _
  | some tool => exact List.Sublist.refl _

theorem stages_names (plan : Plan) (project : String) (trees : List Tree) :
    ((plan.stages project trees none).map Stage.name).Sublist stageNames := by
  simp only [stages, List.map_append]
  exact (((names_sublist_ite (names_sublist_tool ..)).append
    (names_sublist_ite (List.Sublist.refl _))).append
    (names_sublist_ite (List.Sublist.refl _))).append (names_sublist_ite (names_sublist_tool ..))

theorem externalStage_plain {tool : External} (going : tool.cancels = false) (name project : String)
    (trees : List Tree) {store : ExternalReport → Result → Result}
    (keeps : ∀ report result, (store report result).failures = result.failures) :
    (externalStage name tool project trees store).Plain where
  going := going
  keeps := by
    intro stored done result
    cases ran : tool.run project trees with
    | error failure => simp [externalStage, ran, Except.map, Except.mapError] at done
    | ok report =>
      simp [externalStage, ran, Except.map, Except.mapError] at done
      rw [← done, keeps]

theorem builtInStage_plain {α : Type} (name : String) (outcome : Except Fault α)
    {store : α → Result → Result}
    (keeps : ∀ found result, (store found result).failures = result.failures) :
    (builtInStage name outcome store).Plain where
  going := rfl
  keeps := by
    intro stored done result
    cases outcome with
    | error fault => cases done
    | ok found =>
      cases done
      exact keeps found result

theorem stages_plain {plan : Plan} (compiler : ∀ tool ∈ plan.compiler, tool.cancels = false)
    (ioMapping : ∀ tool ∈ plan.ioMapping, tool.cancels = false) (project : String)
    (trees : List Tree) : ∀ stage ∈ plan.stages project trees none, stage.Plain := by
  intro stage member
  simp only [stages, List.mem_append, List.mem_ite_nil_right, List.mem_map, Option.mem_toList,
    List.mem_singleton] at member
  rcases member with ((⟨-, tool, known, rfl⟩ | ⟨-, rfl⟩) | ⟨-, rfl⟩) | ⟨-, tool, known, rfl⟩
  · exact externalStage_plain (compiler tool known) _ _ _ fun _ _ => rfl
  · exact builtInStage_plain _ _ fun _ _ => rfl
  · exact builtInStage_plain _ _ fun _ _ => rfl
  · exact externalStage_plain (ioMapping tool known) _ _ _ fun _ _ => rfl

end Plan

/-! What stages come to -/

theorem failures_joined {stage : Stage} (plain : stage.Plain) (result : Result) :
    (stage.joined result).failures = result.failures ++ stage.failure?.toList := by
  cases outcome : stage.outcome with
  | ok store => simp [Stage.joined, Stage.failure?, outcome, plain.keeps store outcome]
  | error message => simp [Stage.joined, Stage.failure?, outcome]

/-- Failures are noted in the order of the stages. -/
theorem failures_foldl_joined {stages : List Stage} (plain : ∀ stage ∈ stages, stage.Plain)
    (result : Result) :
    (stages.foldl Stage.joined result).failures =
      result.failures ++ stages.filterMap Stage.failure? := by
  induction stages generalizing result with
  | nil => simp
  | cons stage rest ih =>
    obtain ⟨first, later⟩ := List.forall_mem_cons.mp plain
    rw [List.foldl_cons, ih later, failures_joined first, List.append_assoc]
    cases failed : stage.failure? <;> simp [failed]

theorem failure_names_sublist (stages : List Stage) :
    ((stages.filterMap Stage.failure?).map Failure.analysis).Sublist (stages.map Stage.name) := by
  induction stages with
  | nil => exact .slnil
  | cons stage rest ih =>
    cases outcome : stage.outcome with
    | ok store =>
      have sound : stage.failure? = none := by simp [Stage.failure?, outcome]
      rw [List.filterMap_cons_none sound]
      exact ih.cons _
    | error message =>
      have failed : stage.failure? = some ⟨stage.name, message⟩ := by
        simp [Stage.failure?, outcome]
      rw [List.filterMap_cons_some failed]
      exact ih.cons_cons _

/-- The result of a run that no failure ends. -/
def Result.closed (result : Result) : Result :=
  { result with
    completed := true
    cancelled := result.usage.any (·.incomplete) || result.dependencies.any (·.incomplete) }

/-- What a run comes to, told from what came of its stages. -/
def outcomeOf (options : Options) (result : Result) : Except AnalysisError Result :=
  match options.continueOnError, result.failures with
  | false, failure :: _ => .error (.failed failure)
  | _, _ => .ok result.closed

theorem outcomeOf_failing {options : Options} (ends : options.continueOnError = false)
    {result : Result} {failure : Failure} {more : List Failure}
    (noted : result.failures = failure :: more) :
    outcomeOf options result = .error (.failed failure) := by
  rw [outcomeOf, ends, noted]

theorem outcomeOf_whole {options : Options} {result : Result}
    (whole : options.continueOnError = true ∨ result.failures = []) :
    outcomeOf options result = .ok result.closed := by
  unfold outcomeOf
  rcases whole with goesOn | sound
  · rw [goesOn]
  · rw [sound]
    cases options.continueOnError <;> rfl

/-- All that came of stages, in their order. -/
def joinedAll (project : String) (stages : List Stage) : Result :=
  stages.foldl Stage.joined { project }

/-- The run goes on, and has come to a result. -/
structure RunState.Reaches (state : RunState) (result : Result) : Prop where
  result_eq : state.result = result
  going : state.cancelled = false

namespace RunState.Reaches

variable {state : RunState} {result : Result}

theorem concluded (reaches : state.Reaches result) (options : Options) (fileCount : Nat) :
    (state.concluded options fileCount).1 = outcomeOf options result := by
  obtain ⟨rfl, going⟩ := reaches
  unfold RunState.concluded outcomeOf
  split <;> simp_all [RunState.finished, Result.closed]

theorem store (reaches : state.Reaches result) (stage : Stage) :
    (state.store stage).Reaches (stage.joined result) := by
  obtain ⟨rfl, going⟩ := reaches
  cases outcome : stage.outcome <;> constructor <;>
    simp [RunState.store, Stage.joined, outcome, going]

theorem storeAll (reaches : state.Reaches result) (stages : List Stage) :
    (stages.foldl RunState.store state).Reaches (stages.foldl Stage.joined result) := by
  induction stages generalizing state result with
  | nil => exact reaches
  | cons stage rest ih => exact ih (reaches.store stage)

theorem next (reaches : state.Reaches result) {stage : Stage} (plain : stage.Plain) :
    (state.next stage).Reaches (stage.joined result) := by
  have started : RunState.Reaches { state with
      metrics := state.metrics.recordDuration stage.name 0, cancelled := stage.cancels } result :=
    ⟨reaches.result_eq, plain.going⟩
  rw [RunState.next, reaches.going]
  exact started.store stage

theorem nextAll (reaches : state.Reaches result) {stages : List Stage}
    (plain : ∀ stage ∈ stages, stage.Plain) :
    (stages.foldl RunState.next state).Reaches (stages.foldl Stage.joined result) := by
  induction stages generalizing state result with
  | nil => exact reaches
  | cons stage rest ih =>
    obtain ⟨first, later⟩ := List.forall_mem_cons.mp plain
    exact ih (reaches.next first) later

end RunState.Reaches

/-- A run that ends at a failure has the same outcome as one that goes on to look at all stages. -/
theorem RunState.Reaches.toFailure {state : RunState} {result : Result}
    (reaches : state.Reaches result) (clean : result.failures = []) {options : Options}
    (ends : options.continueOnError = false) (fileCount : Nat) {stages : List Stage}
    (plain : ∀ stage ∈ stages, stage.Plain) :
    ((runToFailure state stages).concluded options fileCount).1 =
      outcomeOf options (stages.foldl Stage.joined result) := by
  induction stages generalizing state result with
  | nil => exact reaches.concluded options fileCount
  | cons stage rest ih =>
    obtain ⟨first, later⟩ := List.forall_mem_cons.mp plain
    have onward := reaches.next first
    have noted := failures_joined first result
    rw [clean, List.nil_append] at noted
    rw [runToFailure, onward.result_eq, noted, List.foldl_cons]
    cases failed : stage.failure? with
    | none =>
      rw [failed] at noted
      exact ih onward noted later
    | some failure =>
      rw [failed] at noted
      -- Later stages would only add failures behind this one.
      have all := failures_foldl_joined later (stage.joined result)
      rw [noted] at all
      rw [outcomeOf_failing ends all]
      exact (onward.concluded options fileCount).trans (outcomeOf_failing ends noted)

/-! Stages side by side -/

theorem Started.nextAll (started : Started) {finished : List (Stage × Nat)}
    (going : started.cancelled = false) (plain : ∀ entry ∈ finished, entry.1.Plain)
    (distinct : (finished.map Prod.snd).Nodup)
    (free : ∀ entry ∈ finished, entry.2 ∉ started.slots.keys) :
    (finished.foldl Started.next started).cancelled = false ∧
      (finished.foldl Started.next started).slots.entries.Perm
        (finished.map Prod.swap ++ started.slots.entries) := by
  induction finished generalizing started with
  | nil => exact ⟨going, .refl _⟩
  | cons entry rest ih =>
    obtain ⟨first, later⟩ := List.forall_mem_cons.mp plain
    obtain ⟨fresh, apart⟩ := List.nodup_cons.mp distinct
    obtain ⟨unused, others⟩ := List.forall_mem_cons.mp free
    have next : started.next entry =
        { slots := started.slots.insert entry.2 entry.1
          metrics := started.metrics.recordDuration entry.1.name 0
          cancelled := entry.1.cancels } := by
      rw [Started.next, going]
      rfl
    have running : (started.next entry).cancelled = false := by rw [next, first.going]
    have slots : (started.next entry).slots = started.slots.insert entry.2 entry.1 := by rw [next]
    have stillFree : ∀ other ∈ rest, other.2 ∉ (started.next entry).slots.keys := by
      intro other member taken
      rw [slots] at taken
      rcases (Table.mem_keys_insert ..).mp taken with same | before
      · exact fresh (List.mem_map.mpr ⟨other, member, same⟩)
      · exact others other member before
    obtain ⟨still, filled⟩ := ih _ running later apart stillFree
    rw [slots] at filled
    refine ⟨still, filled.trans ?_⟩
    exact ((Table.entries_insert_perm unused entry.1).append_left _).trans List.perm_middle

/-- In whatever order stages finish, what came of them is joined in the order of the list. -/
theorem RunState.Reaches.beside {state : RunState} {result : Result}
    (reaches : state.Reaches result) {stages : List Stage} (plain : ∀ stage ∈ stages, stage.Plain)
    (schedule : Schedule stages) :
    (runBeside state schedule).Reaches (stages.foldl Stage.joined result) := by
  have present : ∀ entry ∈ schedule.finished, entry.1.Plain := by
    intro entry member
    exact plain _ (List.fst_mem_of_mem_zipIdx (schedule.complete.mem_iff.mp member))
  obtain ⟨going, filled⟩ := Started.nextAll ⟨.empty, state.metrics, state.cancelled⟩ reaches.going
    present schedule.slots_nodup fun _ _ => List.not_mem_nil
  have values := Schedule.values_of_filled id (filled.trans (.of_eq (List.append_nil _)))
  rw [List.map_id] at values
  rw [runBeside, values]
  have started : RunState.Reaches { state with
      metrics := (schedule.finished.foldl Started.next
        ⟨.empty, state.metrics, state.cancelled⟩).metrics
      cancelled := (schedule.finished.foldl Started.next
        ⟨.empty, state.metrics, state.cancelled⟩).cancelled } result :=
    ⟨reaches.result_eq, going⟩
  exact started.storeAll stages

/-! Both ways to run a plan -/

namespace Plan

/-- The plan, to be run side by side or one after another. -/
def inParallel (plan : Plan) (parallel : Bool) : Plan :=
  { plan with options := { plan.options with parallel } }

variable {plan : Plan} {project : String} {trees : List Tree}

theorem runParallel_outcome (plain : ∀ stage ∈ plan.stages project trees none, stage.Plain)
    (timing : plan.Timing project trees) :
    (plan.runParallel timing false).1 =
      outcomeOf plan.options (joinedAll project (plan.stages project trees none)) := by
  have start : RunState.Reaches { result := { project }, cancelled := false } { project } :=
    ⟨rfl, rfl⟩
  -- The schedule is one of the stages whose files finish as `timing` says.
  rw [← plan.stages_beside project trees timing.files] at plain ⊢
  exact (start.beside plain timing.stages).concluded plan.options trees.length

theorem runInTurn_outcome (plain : ∀ stage ∈ plan.stages project trees none, stage.Plain) :
    ((plan.inParallel false).run project trees false).1 =
      outcomeOf plan.options (joinedAll project (plan.stages project trees none)) := by
  have start : RunState.Reaches { result := { project }, cancelled := false } { project } :=
    ⟨rfl, rfl⟩
  have run : (plan.inParallel false).run project trees false =
      (runInTurn plan.options { result := { project }, cancelled := false }
        (plan.stages project trees none)).concluded plan.options trees.length := rfl
  rw [run, runInTurn]
  cases goesOn : plan.options.continueOnError with
  | true => exact (start.nextAll plain).concluded plan.options trees.length
  | false => exact start.toFailure rfl goesOn trees.length plain

/-- What a plan comes to: a result with all failures in the order of the stages, or, where a failure
ends the run, the first of them. -/
structure Reports (plan : Plan) (project : String) (trees : List Tree)
    (outcome : Except AnalysisError Result) : Prop where
  noted : ∀ result, outcome = .ok result →
    result.failures = (plan.stages project trees none).filterMap Stage.failure? ∧
    (result.failures.map Failure.analysis).Sublist stageNames
  first : plan.options.continueOnError = false → ∀ failure,
    (plan.stages project trees none).findSome? Stage.failure? = some failure →
      outcome = .error (.failed failure)
  whole : plan.options.continueOnError = true ∨
      (∀ stage ∈ plan.stages project trees none, stage.failure? = none) →
    ∃ result, outcome = .ok result

theorem outcome_reports (plain : ∀ stage ∈ plan.stages project trees none, stage.Plain) :
    plan.Reports project trees
      (outcomeOf plan.options (joinedAll project (plan.stages project trees none))) := by
  have failures : (joinedAll project (plan.stages project trees none)).failures =
      (plan.stages project trees none).filterMap Stage.failure? := failures_foldl_joined plain _
  refine ⟨fun result done => ?_, fun ends failure found => ?_, fun whole => ?_⟩
  · obtain rfl : (joinedAll project (plan.stages project trees none)).closed = result := by
      unfold outcomeOf at done
      split at done
      · cases done
      · exact Except.ok.inj done
    have names := (failure_names_sublist _).trans (plan.stages_names project trees)
    exact ⟨failures, by rw [← failures] at names; exact names⟩
  · rw [← List.head?_filterMap, ← failures] at found
    obtain ⟨more, noted⟩ := List.head?_eq_some_iff.mp found
    exact outcomeOf_failing ends noted
  · refine ⟨_, outcomeOf_whole (whole.imp_right fun sound => ?_)⟩
    rw [failures, List.filterMap_eq_nil_iff.mpr sound]

/-- Where the tools outside cancel nothing, it does not matter whether a plan is run side by side or
one after another, nor in which orders the stages and the files finish. Both come to the same
result, with the failures in the order of the stages, or to the same first failure. A session whose
analysis fails stays as it was. -/
theorem parallel_agrees (plan : Plan)
    (compiler : ∀ tool ∈ plan.compiler, tool.cancels = false)
    (ioMapping : ∀ tool ∈ plan.ioMapping, tool.cancels = false) (project : String)
    (trees : List Tree) :
    (∀ timing : plan.Timing project trees, (plan.runParallel timing false).1 =
      ((plan.inParallel false).run project trees false).1) ∧
    ((plan.inParallel true).run project trees false).1 =
      ((plan.inParallel false).run project trees false).1 ∧
    plan.Reports project trees ((plan.inParallel false).run project trees false).1 ∧
    ∀ (session : Session) (error : AnalysisError), (session.analyze plan).1 = .error error →
      (session.analyze plan).2 = session := by
  have plain := stages_plain compiler ioMapping project trees
  have beside (timing : plan.Timing project trees) := runParallel_outcome plain timing
  rw [runInTurn_outcome plain]
  refine ⟨beside, beside (.inOrder plan project trees), outcome_reports plain, ?_⟩
  intro session error failed
  unfold Session.analyze at failed ⊢
  split at failed
  · rfl
  · cases failed

/-- A compiler that breaks down, and a mapper that gives up. -/
def troubledPlan : Plan where
  options := { continueOnError := false }
  compiler := some { run := fun _ _ => .error (.crashed (some "out of memory")) }
  ioMapping := some { run := fun project _ => .error (.refused project ["no mapping"]) }

/-- The files, and the stages, finish in the reverse of their order. -/
def troubledTiming : troubledPlan.Timing "plant" Graph.mutualFiles where
  files := ⟨⟨_, List.reverse_perm _⟩, ⟨_, List.reverse_perm _⟩⟩
  stages := ⟨_, List.reverse_perm _⟩

theorem parallel_agrees_troubledPlan :
    (troubledPlan.runParallel troubledTiming false).1 =
        .error (.failed { analysis := "compilation", message := "out of memory" }) ∧
      ((troubledPlan.inParallel true).run "plant" Graph.mutualFiles false).1 =
        ((troubledPlan.inParallel false).run "plant" Graph.mutualFiles false).1 := by
  obtain ⟨beside, inOrder, reports, _⟩ := troubledPlan.parallel_agrees
    (by simp [troubledPlan]) (by simp [troubledPlan]) "plant" Graph.mutualFiles
  exact ⟨(beside troubledTiming).trans (reports.first rfl _ rfl), inOrder⟩

end Plan

end Project

end PlcAudit
