import PlcAudit.Proofs.Project.Parallel
import PlcAudit.Proofs.Usage.UnusedFunction

/-!
Functions that nobody calls, each by its slot: the file and the line where it starts. The findings
are collected by slot, so that of several functions in one slot only the last is reported, and no
finding is lost exactly where no two of them share a slot.
-/

namespace PlcAudit.Usage

open Code PlcAudit.Flow

/-- A function that is no entry point and that no recorded call of the project goes to. -/
def Uncalled (options : Options) (trees : List Tree) (pou : Pou Mark) : Prop :=
  pou.isFunction = true ∧
    (∀ entry ∈ options.entryPoints, Text.upper entry ≠ Text.upper pou.name) ∧
    ∀ tree ∈ trees, ∀ unit ∈ tree.pous,
      ∀ site ∈ (pouFlow options.strict tree.file unit).calls,
        Text.upper site.callee ≠ Text.upper pou.name

instance (options : Options) (trees : List Tree) (pou : Pou Mark) :
    Decidable (Uncalled options trees pou) :=
  inferInstanceAs (Decidable (_ ∧ _ ∧ _))

/-- What has to be said about each uncalled function, with its slot. -/
def uncalledSlots (options : Options) (trees : List Tree) :
    List (Pair String Nat × DeadCode) :=
  trees.flatMap fun tree => (tree.pous.filter fun pou => decide (Uncalled options trees pou)).map
    fun pou => (⟨tree.file, pou.tag.line⟩, unusedFunction tree.file pou)

/-- The findings about functions that nobody calls. -/
def Analysis.uncalledReports (analysis : Analysis) : List DeadCode :=
  analysis.deadCode.filter (·.kind = .unusedFunction)

/-- A run over the files, one after another or side by side, comes to the analysis. -/
def Finds (options : Options) (project : String) (trees : List Tree) (analysis : Analysis) :
    Prop :=
  (∃ cancelled, analyze options project trees cancelled = .ok analysis) ∨
    ∃ schedule : Schedule trees, analyzeBeside options project schedule = .ok analysis

section

variable {options : Options} {project : String} {trees : List Tree} {analysis : Analysis}

/-- A run that leaves out no file is like one that nobody cancels. -/
theorem Finds.uncancelled (finds : Finds options project trees analysis)
    (complete : analysis.incomplete = false) :
    analyze options project trees false = .ok analysis := by
  rcases finds with ⟨cancelled, done⟩ | ⟨schedule, done⟩
  · cases cancelled with
    | false => exact done
    | true =>
      cases trees with
      | nil => exact done
      | cons tree rest =>
        cases done
        cases complete
  · exact (analyzeBeside_eq_ok_iff options project schedule analysis).mp done

/-- What the units call and what is called from outside. -/
theorem mem_calledNames {flows : List PouFlow} {entryPoints : List String} {key : String} :
    key ∈ calledNames flows entryPoints ↔
      (∃ flow ∈ flows, ∃ site ∈ flow.calls, Text.upper site.callee = key) ∨
        ∃ entry ∈ entryPoints, Text.upper entry = key := by
  simp [calledNames]

/-- With the data flow of all units at hand, the findings are those of the uncalled functions. -/
theorem unusedFunctions_eq {flows : List PouFlow}
    (made : ∀ flow ∈ flows, ∃ tree ∈ trees, ∃ pou ∈ tree.pous,
      flow = pouFlow options.strict tree.file pou)
    (complete : ∀ tree ∈ trees, ∀ pou ∈ tree.pous, pouFlow options.strict tree.file pou ∈ flows) :
    unusedFunctions trees flows options.entryPoints =
      (Table.ofList (uncalledSlots options trees)).values := by
  have uncalled : ∀ pou : Pou Mark,
      (pou.isFunction && !(calledNames flows options.entryPoints).contains (Text.upper pou.name)) =
        decide (Uncalled options trees pou) := by
    intro pou
    rw [Bool.eq_iff_iff, Bool.and_eq_true, Bool.not_eq_true', List.contains_eq_mem,
      decide_eq_false_iff_not, mem_calledNames, decide_eq_true_iff]
    refine and_congr_right fun _ => ?_
    constructor
    · intro unnamed
      refine ⟨fun entry listed same => unnamed (.inr ⟨entry, listed, same⟩), ?_⟩
      exact fun tree inTrees unit inTree site recorded same =>
        unnamed (.inl ⟨_, complete tree inTrees unit inTree, site, recorded, same⟩)
    · intro free
      rintro (⟨flow, member, site, recorded, same⟩ | ⟨entry, listed, same⟩)
      · obtain ⟨tree, inTrees, unit, inTree, rfl⟩ := made flow member
        exact free.2 tree inTrees unit inTree site recorded same
      · exact free.1 entry listed same
  simp only [unusedFunctions, uncalledSlots, uncalled]

theorem kind_of_mem_slots {slot : Pair String Nat × DeadCode}
    (member : slot ∈ uncalledSlots options trees) : slot.2.kind = .unusedFunction := by
  obtain ⟨tree, _, inside⟩ := List.mem_flatMap.mp member
  obtain ⟨pou, _, rfl⟩ := List.mem_map.mp inside
  rfl

/-- What is reported about functions in the result of a project. -/
theorem uncalledReports_perm (done : analyze options project trees false = .ok analysis)
    (whole : options.perFile = false) :
    analysis.uncalledReports.Perm
      ((Table.lastEntries (uncalledSlots options trees)).map Prod.snd) := by
  obtain ⟨flows, rfl, made, complete⟩ := analyze_flows done
  have last := (Table.entries_ofList_perm (uncalledSlots options trees)).map Prod.snd
  have inner : (flows.flatMap (·.deadCode)).filter (·.kind = .unusedFunction) = [] := by
    apply List.filter_eq_nil_iff.mpr
    intro dead member
    obtain ⟨flow, listed, inside⟩ := List.mem_flatMap.mp member
    obtain ⟨_, _, unit, _, rfl⟩ := made flow listed
    simpa using deadCode_inward _ _ _ dead inside
  have outer : (Table.ofList (uncalledSlots options trees)).values.filter
      (·.kind = .unusedFunction) = (Table.ofList (uncalledSlots options trees)).values := by
    apply List.filter_eq_self.mpr
    intro dead member
    obtain ⟨slot, kept, rfl⟩ := List.mem_map.mp (last.subset member)
    exact decide_eq_true (kind_of_mem_slots ((Table.lastEntries_sublist _).subset kept))
  have reports : Analysis.uncalledReports (summarize options project trees flows trees.length) =
      (Table.ofList (uncalledSlots options trees)).values := by
    rw [Analysis.uncalledReports, summarize, List.filter_append, inner,
      unusedFunctions_eq made complete]
    simp only [Nat.lt_irrefl, decide_false, whole, Bool.not_false, Bool.and_self, if_true, outer,
      List.nil_append]
  rw [reports]
  exact last

end

/-- Of the uncalled functions of a project in one slot, the last is reported. So there is one report
for each of them exactly if no two start on one line of one file. -/
theorem unusedFunction_by_slot {options : Options} {project : String} {trees : List Tree}
    {analysis : Analysis} (finds : Finds options project trees analysis)
    (complete : analysis.incomplete = false) (whole : options.perFile = false) :
    analysis.uncalledReports.Perm
      ((Table.lastEntries (uncalledSlots options trees)).map Prod.snd) ∧
    (analysis.uncalledReports.Perm ((uncalledSlots options trees).map Prod.snd) ↔
      ((uncalledSlots options trees).map Prod.fst).Nodup) := by
  have kept := uncalledReports_perm (finds.uncancelled complete) whole
  refine ⟨kept, ?_⟩
  rw [← Table.lastEntries_eq_self_iff]
  constructor
  · intro all
    apply (Table.lastEntries_sublist _).eq_of_length
    simpa using (kept.symm.trans all).length_eq
  · intro same
    rw [same] at kept
    exact kept

/-- A function on one line that does nothing. -/
def idleFunction (id line : Nat) (name : String) : Pou Mark where
  tag := ⟨id, .line line⟩
  kind := .function "INT"
  name := name
  body := []

/-- A file with two functions and no call. -/
def idleFunctions (first second : Nat) : List Tree :=
  let roots := [.pou (idleFunction 0 first "Scale"), .pou (idleFunction 1 second "Clamp")]
  [{ file := "math.st", source := "", roots, errors := []
     index := (ParentIndex.build roots).toOption.getD .empty }]

theorem idleFunctions_slots (first second : Nat) :
    uncalledSlots {} (idleFunctions first second) =
      [(⟨"math.st", first⟩, unusedFunction "math.st" (idleFunction 0 first "Scale")),
        (⟨"math.st", second⟩, unusedFunction "math.st" (idleFunction 1 second "Clamp"))] := rfl

/-- On lines of their own, both functions are reported. -/
theorem unusedFunction_by_slot_apart : ∃ analysis,
    Finds {} "plant" (idleFunctions 1 4) analysis ∧ analysis.incomplete = false ∧
      analysis.uncalledReports.Perm
        [unusedFunction "math.st" (idleFunction 0 1 "Scale"),
          unusedFunction "math.st" (idleFunction 1 4 "Clamp")] := by
  have finds : Finds {} "plant" (idleFunctions 1 4) _ := .inl ⟨false, rfl⟩
  refine ⟨_, finds, rfl, ?_⟩
  have reports := (unusedFunction_by_slot finds rfl rfl).2
  rw [idleFunctions_slots] at reports
  exact reports.mpr (by decide)

/-- On one line, the second function takes the slot of the first, which is not reported. -/
theorem idleFunctions_share_slot : ∃ analysis,
    Finds {} "plant" (idleFunctions 1 1) analysis ∧ analysis.incomplete = false ∧
      (uncalledSlots {} (idleFunctions 1 1)).map (·.2.pouName) = ["Scale", "Clamp"] ∧
      analysis.uncalledReports.map (·.pouName) = ["Clamp"] ∧
      ¬ analysis.uncalledReports.Perm ((uncalledSlots {} (idleFunctions 1 1)).map Prod.snd) := by
  refine ⟨_, .inl ⟨false, rfl⟩, rfl, rfl, rfl, fun all => ?_⟩
  have equal : 1 = 2 := all.length_eq
  cases equal

end PlcAudit.Usage
