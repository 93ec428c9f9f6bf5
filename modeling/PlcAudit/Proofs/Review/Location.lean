import PlcAudit.Proofs.Data.Table
import PlcAudit.Proofs.Review.Interruption
import PlcAudit.Proofs.Text.Line

/-!
Where the rules of the library report their findings. Rules count lines in several ways: by the line
feeds before a match, by the lines of the code with or without comments, or by the new globals of a
file. Whatever they count, a finding stays on the lines of the change that it is about.
-/

namespace PlcAudit.Review

open Code

/-! The lines of changes -/

/-- Line feeds in a text that may be missing. -/
def lineFeedsIn (text : Option String) : Nat :=
  (text.getD "").toList.count '\n'

def VariableChange.Covers (change : VariableChange) (line : Nat) : Prop :=
  line = change.line

/-- The line lies among those of the new code. -/
def LogicChange.Covers (change : LogicChange) (line : Nat) : Prop :=
  change.firstLine ≤ line ∧ line ≤ change.firstLine + lineFeedsIn change.newCode

/-- The line lies among those of the new definition. -/
def TypeChange.Covers (change : TypeChange) (line : Nat) : Prop :=
  change.line ≤ line ∧ line ≤ change.line + lineFeedsIn change.newDefinition

/-- The line of a file lies in a change of the set. -/
def ChangeSet.Covers (changes : ChangeSet) (file : String) (line : Nat) : Prop :=
  (∃ change ∈ changes.declarations, change.file = file ∧ change.Covers line) ∨
  (∃ change ∈ changes.logic, change.file = file ∧ change.Covers line) ∨
  ∃ change ∈ changes.types, change.file = file ∧ change.Covers line

namespace LogicChange

variable (change : LogicChange)

theorem covers_firstLine : change.Covers change.firstLine :=
  ⟨Nat.le_refl _, Nat.le_add_right ..⟩

theorem covers_lineAt (position : Nat) : change.Covers (change.lineAt position) :=
  ⟨Nat.le_add_right .., Nat.add_le_add_left (Text.lineFeeds_le_count ..) _⟩

theorem covers_of_le {index : Nat} (bound : index ≤ lineFeedsIn change.newCode) :
    change.Covers (change.firstLine + index) :=
  ⟨Nat.le_add_right .., Nat.add_le_add_left bound _⟩

/-- The code that rules look at has no lines of its own. -/
theorem length_lines_codeToCheck :
    (Text.lines (change.codeToCheck?.getD "")).length ≤ lineFeedsIn change.newCode + 1 := by
  unfold codeToCheck?
  split
  · exact Text.length_lines_le _
  · exact Nat.zero_le _

theorem covers_line {index : Nat}
    (bound : index < (Text.lines (change.codeToCheck?.getD "")).length) :
    change.Covers (change.firstLine + index) := by
  have lines := change.length_lines_codeToCheck
  exact change.covers_of_le (by omega)

end LogicChange

theorem TypeChange.covers_line (change : TypeChange) : change.Covers change.line :=
  ⟨Nat.le_refl _, Nat.le_add_right ..⟩

/-! Rules -/

/-- What a rule finds lies in the change that it looks at. -/
structure Rule.Placed (rule : Rule) : Prop where
  onVariable : ∀ change, ∀ finding ∈ rule.onVariable change, change.Covers finding.line
  onLogic : ∀ change, ∀ finding ∈ rule.onLogic change, change.Covers finding.line
  onType : ∀ change, ∀ finding ∈ rule.onType change, change.Covers finding.line
  onSet : ∀ changes, ∀ place ∈ rule.onSet changes, changes.Covers place.1 place.2.line

/-- For a rule that looks at declarations only. -/
theorem Rule.Placed.ofVariable {rule : Rule}
    (only : rule.onLogic = (fun _ => []) ∧ rule.onType = (fun _ => []) ∧
      rule.onSet = fun _ => [])
    (placed : ∀ change, ∀ finding ∈ rule.onVariable change, change.Covers finding.line) :
    rule.Placed := by
  obtain ⟨onLogic, onType, onSet⟩ := only
  exact ⟨placed, by simp [onLogic], by simp [onType], by simp [onSet]⟩

/-- For a rule that looks at code only. -/
theorem Rule.Placed.ofLogic {rule : Rule}
    (only : rule.onVariable = (fun _ => []) ∧ rule.onType = (fun _ => []) ∧
      rule.onSet = fun _ => [])
    (placed : ∀ change, ∀ finding ∈ rule.onLogic change, change.Covers finding.line) :
    rule.Placed := by
  obtain ⟨onVariable, onType, onSet⟩ := only
  exact ⟨by simp [onVariable], placed, by simp [onType], by simp [onSet]⟩

/-! Declarations -/

theorem narrowedType_placed : narrowedType.Placed := by
  refine .ofVariable ⟨rfl, rfl, rfl⟩ fun change => ?_
  unfold narrowedType
  dsimp only
  repeat' split
  all_goals first | exact List.forall_mem_nil _ | exact List.forall_mem_singleton.mpr rfl

theorem missingInitialValue_placed : missingInitialValue.Placed := by
  refine .ofVariable ⟨rfl, rfl, rfl⟩ fun change => ?_
  unfold missingInitialValue
  dsimp only
  repeat' split
  all_goals first | exact List.forall_mem_nil _ | exact List.forall_mem_singleton.mpr rfl

theorem placeholderName_placed : placeholderName.Placed := by
  refine .ofVariable ⟨rfl, rfl, rfl⟩ fun change => ?_
  unfold placeholderName
  dsimp only
  split
  · exact List.forall_mem_singleton.mpr rfl
  · exact List.forall_mem_nil _

theorem globalLifetime_placed : globalLifetime.Placed := by
  refine .ofVariable ⟨rfl, rfl, rfl⟩ fun change => ?_
  unfold globalLifetime
  dsimp only
  repeat' split
  all_goals first | exact List.forall_mem_nil _ | exact List.forall_mem_singleton.mpr rfl

theorem namingConvention_placed : namingConvention.Placed where
  onVariable change := by
    unfold namingConvention
    dsimp only
    split
    · exact List.forall_mem_nil _
    · exact List.forall_mem_singleton.mpr rfl
  onType change := by
    unfold namingConvention
    dsimp only
    split
    · exact List.forall_mem_singleton.mpr change.covers_line
    · exact List.forall_mem_nil _
  onLogic _ := List.forall_mem_nil _
  onSet _ := List.forall_mem_nil _

theorem longName_placed (limit : Nat) : (longName limit).Placed where
  onVariable change := by
    unfold longName
    dsimp only
    split
    · exact List.forall_mem_nil _
    · exact List.forall_mem_singleton.mpr rfl
  onType change := by
    unfold longName
    dsimp only
    split
    · exact List.forall_mem_nil _
    · refine List.forall_mem_append.mpr ⟨?_, List.forall_mem_map.mpr fun _ _ => change.covers_line⟩
      split
      · exact List.forall_mem_nil _
      · exact List.forall_mem_singleton.mpr change.covers_line
  onLogic _ := List.forall_mem_nil _
  onSet _ := List.forall_mem_nil _

/-- The globals listed for a file are new ones of that file, and there is at least one. -/
theorem addedGlobals_all (changes : ChangeSet) : (addedGlobals changes).All fun file added =>
    added ≠ [] ∧ ∀ change ∈ added, change ∈ changes.declarations ∧ change.file = file := by
  unfold addedGlobals
  refine List.foldlRecOn (motive := Table.All _) _ _ Table.all_empty ?_
  intro table all change member
  refine all.alter ⟨by simp, ?_⟩
  intro other listed
  rcases List.mem_append.mp listed with before | own
  · cases stored : table.find? change.file with
    | none => rw [stored] at before; cases before
    | some added =>
      rw [stored] at before
      exact (all _ _ stored).2 other before
  · rw [List.mem_singleton.mp own]
    exact ⟨(List.mem_filter.mp member).1, rfl⟩

theorem globalOveruse_placed (warningCount maxCount : Nat) :
    (globalOveruse warningCount maxCount).Placed where
  onVariable _ := List.forall_mem_nil _
  onLogic _ := List.forall_mem_nil _
  onType _ := List.forall_mem_nil _
  onSet changes := by
    intro place member
    obtain ⟨⟨file, added⟩, listed, found⟩ := List.mem_filterMap.mp member
    obtain ⟨some, inside⟩ := addedGlobals_all changes file added (Table.find?_of_mem_entries listed)
    simp only at found
    split at found
    · cases found
    · rename_i enough
      cases found
      -- Under a limit of zero it is the first global that is named.
      have bound : warningCount - 1 < added.length := by
        have := List.length_pos_iff.mpr some
        omega
      obtain ⟨known, inFile⟩ := inside added[warningCount - 1] (List.getElem_mem bound)
      have line : (added[warningCount - 1]?.map VariableChange.line).getD 0 =
          added[warningCount - 1].line := by
        rw [List.getElem?_eq_getElem bound]
        rfl
      exact .inl ⟨_, known, inFile, line⟩

/-! Matches in code -/

theorem uncheckedIndex_placed : uncheckedIndex.Placed :=
  .ofLogic ⟨rfl, rfl, rfl⟩ fun change =>
    List.forall_mem_map.mpr fun _ _ => change.covers_lineAt _

theorem uncheckedPointer_placed : uncheckedPointer.Placed where
  onVariable _ := List.forall_mem_nil _
  onLogic change := List.forall_mem_map.mpr fun _ _ => change.covers_lineAt _
  onType change := List.forall_mem_map.mpr fun _ _ => change.covers_line
  onSet _ := List.forall_mem_nil _

theorem fixedAddress_placed : fixedAddress.Placed :=
  .ofLogic ⟨rfl, rfl, rfl⟩ fun change =>
    List.forall_mem_map.mpr fun _ _ => change.covers_lineAt _

theorem exactComparison_placed : exactComparison.Placed where
  onVariable _ := List.forall_mem_nil _
  onLogic change := by
    unfold exactComparison
    dsimp only
    split
    · exact List.forall_mem_nil _
    · intro finding member
      obtain ⟨found, _, made⟩ := List.mem_filterMap.mp member
      simp only [Option.bind_eq_bind, Option.bind_eq_some_iff] at made
      obtain ⟨left, _, operator, _, right, _, made⟩ := made
      split at made
      · cases made
        exact change.covers_lineAt _
      · cases made
  onType change := List.forall_mem_map.mpr fun _ _ => change.covers_line
  onSet _ := List.forall_mem_nil _

theorem magicNumber_placed : magicNumber.Placed where
  onVariable change := by
    unfold magicNumber
    dsimp only
    repeat' split
    all_goals first | exact List.forall_mem_nil _ | exact List.forall_mem_singleton.mpr rfl
  onLogic change := by
    unfold magicNumber
    dsimp only
    split
    · exact List.forall_mem_nil _
    · exact List.forall_mem_singleton.mpr change.covers_firstLine
  onType _ := List.forall_mem_nil _
  onSet _ := List.forall_mem_nil _

/-! Lines of code -/

theorem length_bareLines (code : String) : (bareLines code).length = (Text.lines code).length := by
  rw [bareLines, List.length_map, length_uncommentedLines]

/-- The line of the greatest depth is a line of the code; without structures it is none. -/
theorem maxNesting_line (code : String) :
    (maxNesting code).2 = 0 ∨ (maxNesting code).2 < (Text.lines code).length := by
  rw [← length_bareLines]
  refine List.foldlRecOn (motive := fun state : NestingState =>
    state.deepestLine = 0 ∨ state.deepestLine < (bareLines code).length) _ _ (.inl rfl) ?_
  rintro state known ⟨line, index⟩ member
  have bound : index < (bareLines code).length := List.snd_lt_of_mem_zipIdx member
  -- Only a line that leads deeper than before is noted.
  simp only [NestingState.next]
  repeat' split
  · exact known
  · exact .inr bound
  · exact known
  · exact known

theorem deepNesting_placed (limit : Nat) : (deepNesting limit).Placed := by
  refine .ofLogic ⟨rfl, rfl, rfl⟩ fun change => ?_
  unfold deepNesting
  dsimp only
  split
  · exact List.forall_mem_nil _
  · refine List.forall_mem_singleton.mpr ?_
    dsimp only
    rcases maxNesting_line (change.codeToCheck?.getD "") with none | bound
    · rw [none]
      exact change.covers_firstLine
    · exact change.covers_line bound

theorem OpenCase.next_start (current : OpenCase) (line : String) :
    (current.next line).start = current.start := by
  simp only [OpenCase.next]
  repeat' split
  all_goals rfl

/-- Selections that end start at lines that were read as their heads. -/
theorem casesWithoutElseFrom_starts (admits : Nat → Prop) {stack : List OpenCase}
    {lines : List (String × Nat)} (opened : ∀ current ∈ stack, admits current.start)
    (numbered : ∀ line ∈ lines, caseHeadPattern.isMatch line.1 = true → admits line.2) :
    ∀ start ∈ casesWithoutElseFrom stack lines, admits start := by
  fun_induction casesWithoutElseFrom stack lines with
  | case1 => nofun
  | case2 stack line index rest head ih =>
    obtain ⟨here, later⟩ := List.forall_mem_cons.mp numbered
    exact ih (List.forall_mem_cons.mpr ⟨here head, opened⟩) later
  | case3 line index rest _ _ ih => exact ih opened (List.forall_mem_cons.mp numbered).2
  | case4 line index rest _ _ current outer _ ih =>
    exact ih (List.forall_mem_cons.mp opened).2 (List.forall_mem_cons.mp numbered).2
  | case5 line index rest _ _ current outer _ ih =>
    obtain ⟨own, others⟩ := List.forall_mem_cons.mp opened
    exact List.forall_mem_cons.mpr ⟨own, ih others (List.forall_mem_cons.mp numbered).2⟩
  | case6 line index rest _ _ ih => exact ih opened (List.forall_mem_cons.mp numbered).2
  | case7 line index rest _ _ current outer ih =>
    obtain ⟨own, others⟩ := List.forall_mem_cons.mp opened
    refine ih (List.forall_mem_cons.mpr ⟨?_, others⟩) (List.forall_mem_cons.mp numbered).2
    rw [OpenCase.next_start]
    exact own

theorem missingElse_placed : missingElse.Placed := by
  refine .ofLogic ⟨rfl, rfl, rfl⟩ fun change => ?_
  refine List.forall_mem_map.mpr fun start member => change.covers_line ?_
  rw [← length_bareLines]
  exact casesWithoutElseFrom_starts (· < (bareLines _).length) (List.forall_mem_nil _)
    (fun _ numbered _ => List.snd_lt_of_mem_zipIdx numbered) start member

/-- Loops start at lines that were looked at. -/
theorem loopBlocksFrom_starts (admits : Nat → Prop) {current : Option LoopBlock}
    {lines : List (String × Nat)} (opened : ∀ block ∈ current, admits block.start)
    (numbered : ∀ line ∈ lines, admits line.2) :
    ∀ block ∈ loopBlocksFrom current lines, admits block.start := by
  fun_induction loopBlocksFrom current lines with
  | case1 current => simpa using opened
  | case2 block line index rest longer _ ih =>
    have later := (List.forall_mem_cons.mp numbered).2
    exact List.forall_mem_cons.mpr ⟨opened block rfl, ih (by simp) later⟩
  | case3 block line index rest longer _ ih =>
    refine ih ?_ (List.forall_mem_cons.mp numbered).2
    intro other same
    cases same
    exact opened block rfl
  | case4 line start rest kind _ ih =>
    obtain ⟨here, later⟩ := List.forall_mem_cons.mp numbered
    refine ih ?_ later
    intro block same
    cases same
    exact here
  | case5 line start rest _ ih => exact ih (by simp) (List.forall_mem_cons.mp numbered).2

theorem unboundedLoop_placed : unboundedLoop.Placed := by
  refine .ofLogic ⟨rfl, rfl, rfl⟩ fun change => ?_
  refine List.forall_mem_map.mpr fun block member => change.covers_line ?_
  rw [← length_uncommentedLines]
  exact loopBlocksFrom_starts (· < (uncommentedLines _).length) (by simp)
    (fun _ numbered => List.snd_lt_of_mem_zipIdx numbered) block (List.mem_filter.mp member).1

/-! Code as a whole -/

theorem longFunction_placed (limit criticalLimit : Nat) :
    (longFunction limit criticalLimit).Placed := by
  refine .ofLogic ⟨rfl, rfl, rfl⟩ fun change => ?_
  unfold longFunction
  dsimp only
  split
  · exact List.forall_mem_nil _
  · exact List.forall_mem_singleton.mpr change.covers_firstLine

theorem fewComments_placed (linesPerComment : Nat) : (fewComments linesPerComment).Placed := by
  refine .ofLogic ⟨rfl, rfl, rfl⟩ fun change => ?_
  unfold fewComments
  dsimp only
  repeat' split
  all_goals first
    | exact List.forall_mem_nil _
    | exact List.forall_mem_singleton.mpr change.covers_firstLine

theorem highComplexity_placed (threshold : Nat) : (highComplexity threshold).Placed := by
  refine .ofLogic ⟨rfl, rfl, rfl⟩ fun change => ?_
  unfold highComplexity
  dsimp only
  repeat' split
  all_goals first
    | exact List.forall_mem_nil _
    | exact List.forall_mem_singleton.mpr change.covers_firstLine

theorem manyParameters_placed (threshold : Nat) : (manyParameters threshold).Placed := by
  refine .ofLogic ⟨rfl, rfl, rfl⟩ fun change => ?_
  unfold manyParameters
  dsimp only
  repeat' split
  all_goals first
    | exact List.forall_mem_nil _
    | exact List.forall_mem_singleton.mpr change.covers_firstLine

theorem mixedIndentation_placed : mixedIndentation.Placed := by
  refine .ofLogic ⟨rfl, rfl, rfl⟩ fun change => ?_
  unfold mixedIndentation
  dsimp only
  split
  · exact List.forall_mem_nil _
  · exact List.forall_mem_singleton.mpr change.covers_firstLine

/-! Repeated code -/

theorem length_windows_le (lines : List String) : (windows lines).length ≤ lines.length := by
  rw [windows, List.length_map, List.length_range, windowSize]
  omega

/-- The block that repeats an earlier one is among those that were looked at. -/
theorem repetitionFrom_mem {seen blocks : List (String × Nat)} {index first : Nat}
    (found : repetitionFrom seen blocks = some (index, first)) :
    ∃ block, (block, index) ∈ blocks := by
  induction blocks generalizing seen with
  | nil => cases found
  | cons block rest ih =>
    obtain ⟨digest, position⟩ := block
    rw [repetitionFrom] at found
    repeat' split at found
    · obtain ⟨block, member⟩ := ih found
      exact ⟨block, List.mem_cons_of_mem _ member⟩
    · cases found
      exact ⟨digest, List.mem_cons_self⟩
    · obtain ⟨block, member⟩ := ih found
      exact ⟨block, List.mem_cons_of_mem _ member⟩

theorem repetition?_lt {lines : List String} {index first : Nat}
    (found : repetition? lines = some (index, first)) : index < lines.length := by
  rw [repetition?] at found
  split at found
  · cases found
  · obtain ⟨block, member⟩ := repetitionFrom_mem found
    have inside := List.snd_lt_of_mem_zipIdx member
    rw [List.length_map] at inside
    exact Nat.lt_of_lt_of_le inside (length_windows_le lines)

/-- Additions that repeat earlier ones are changes of the set. -/
theorem repeatedBlocks_mem {seen : List (String × LogicChange)} {logic : List LogicChange}
    {change earlier : LogicChange} (found : (change, earlier) ∈ repeatedBlocks seen logic) :
    change ∈ logic := by
  induction logic generalizing seen with
  | nil => cases found
  | cons first rest ih =>
    rw [repeatedBlocks] at found
    repeat' split at found
    · exact List.mem_cons_of_mem _ (ih found)
    · exact List.mem_cons_of_mem _ (ih found)
    · rcases List.mem_cons.mp found with same | later
      · cases same
        exact List.mem_cons_self
      · exact List.mem_cons_of_mem _ (ih later)
    · exact List.mem_cons_of_mem _ (ih found)

/-- A repeated block counts normalized lines, which are no more than the lines of the code. -/
theorem duplicateCode_placed : duplicateCode.Placed where
  onVariable _ := List.forall_mem_nil _
  onLogic change := by
    unfold duplicateCode
    dsimp only
    split
    · exact List.forall_mem_nil _
    · rename_i index first found
      refine List.forall_mem_singleton.mpr (change.covers_of_le ?_)
      obtain ⟨lines, added, repeats⟩ := Option.bind_eq_some_iff.mp found
      unfold LogicChange.addedLines? at added
      split at added
      · obtain ⟨code, isNew, rfl⟩ := Option.map_eq_some_iff.mp added
        have bound := Nat.lt_of_lt_of_le (repetition?_lt repeats) (length_normalizedLines_le code)
        rw [lineFeedsIn, isNew]
        exact Nat.le_of_lt_succ bound
      · cases added
  onType _ := List.forall_mem_nil _
  onSet changes := by
    refine List.forall_mem_map.mpr fun entry member => ?_
    exact .inr (.inl ⟨entry.1, repeatedBlocks_mem member, rfl, entry.1.covers_firstLine⟩)

/-! Rows of the catalogue -/

theorem firstOnLine_subset {α : Type} (seen : List Nat) (places : List (Nat × α)) :
    firstOnLine seen places ⊆ places := by
  induction places generalizing seen with
  | nil => exact List.Subset.refl _
  | cons place rest ih =>
    rw [firstOnLine]
    split
    · exact List.Subset.trans (ih seen) (List.subset_cons_self place rest)
    · exact List.cons_subset_cons place (ih _)

theorem Row.rule_placed (row : Row) : row.rule.Placed where
  onVariable change := by
    unfold Row.rule
    dsimp only
    split
    · exact List.forall_mem_nil _
    · intro finding member
      obtain ⟨found, _, rfl⟩ := Option.map_eq_some_iff.mp (Option.mem_toList.mp member)
      rfl
  onLogic change := by
    unfold Row.rule
    dsimp only
    split
    · refine List.forall_mem_map.mpr fun place member => ?_
      obtain ⟨found, _, rfl⟩ := List.mem_map.mp (firstOnLine_subset _ _ member)
      exact change.covers_lineAt _
    · exact List.forall_mem_nil _
  onType change := by
    unfold Row.rule
    dsimp only
    split
    · rename_i definition _ _ isNew
      refine List.forall_mem_map.mpr fun found _ => ⟨Nat.le_add_right .., ?_⟩
      rw [lineFeedsIn, isNew]
      exact Nat.add_le_add_left (Text.lineFeeds_le_count ..) _
    · exact List.forall_mem_nil _
  onSet _ := List.forall_mem_nil _

/-! All rules of the library -/

/-- The coded rules under given limits and all rows of the catalogue. -/
def allRules (limits : Thresholds) : List Rule :=
  codedRules limits ++ catalogueRules

theorem codedRules_placed (limits : Thresholds) : ∀ rule ∈ codedRules limits, rule.Placed := by
  simp only [codedRules, List.forall_mem_cons]
  exact ⟨narrowedType_placed, missingInitialValue_placed, uncheckedIndex_placed,
    uncheckedPointer_placed, exactComparison_placed, placeholderName_placed, magicNumber_placed,
    longFunction_placed .., deepNesting_placed _, duplicateCode_placed, missingElse_placed,
    namingConvention_placed, globalOveruse_placed .., fixedAddress_placed, unboundedLoop_placed,
    fewComments_placed _, highComplexity_placed _, manyParameters_placed _, longName_placed _,
    mixedIndentation_placed, globalLifetime_placed, List.forall_mem_nil _⟩

theorem allRules_placed (limits : Thresholds) : ∀ rule ∈ allRules limits, rule.Placed := by
  refine List.forall_mem_append.mpr ⟨codedRules_placed limits, ?_⟩
  exact List.forall_mem_map.mpr fun row _ => row.rule_placed

/-- The issue names its place, and the place lies in a change of the set. -/
structure ChangeSet.Locates (changes : ChangeSet) (issue : Issue) : Prop where
  location : issue.location = s!"{issue.file}:{issue.line}"
  covered : changes.Covers issue.file issue.line

theorem Rule.Placed.findings_located {rule : Rule} (placed : rule.Placed) (changes : ChangeSet) :
    ∀ issue ∈ rule.checker.findings changes, changes.Locates issue := by
  intro issue member
  simp only [Checker.findings, List.mem_append] at member
  rcases member with ((found | found) | found) | found
  · obtain ⟨change, known, found⟩ := List.mem_flatMap.mp found
    obtain ⟨finding, listed, rfl⟩ := List.mem_map.mp found
    exact ⟨rfl, .inl ⟨change, known, rfl, placed.onVariable change finding listed⟩⟩
  · obtain ⟨change, known, found⟩ := List.mem_flatMap.mp found
    obtain ⟨finding, listed, rfl⟩ := List.mem_map.mp found
    exact ⟨rfl, .inr (.inl ⟨change, known, rfl, placed.onLogic change finding listed⟩)⟩
  · obtain ⟨change, known, found⟩ := List.mem_flatMap.mp found
    obtain ⟨finding, listed, rfl⟩ := List.mem_map.mp found
    exact ⟨rfl, .inr (.inr ⟨change, known, rfl, placed.onType change finding listed⟩)⟩
  · split at found
    · cases found
    · obtain ⟨place, listed, rfl⟩ := List.mem_map.mp found
      exact ⟨rfl, placed.onSet changes place listed⟩

theorem Rule.checker_failures (rule : Rule) (changes : ChangeSet) :
    rule.checker.failures changes = [] := by
  simp [Checker.failures, Rule.checker, Reply.failure?]

namespace Engine

/-- All checkers of the engine are rules of the library. -/
def BuiltIn (engine : Engine) (limits : Thresholds) : Prop :=
  ∀ checker ∈ engine.checkers, ∃ rule ∈ allRules limits, checker = rule.checker

/-- Rules of the library do not fail, so that a run of them always ends with a report. -/
theorem BuiltIn.analyze_eq {engine : Engine} {limits : Thresholds} (builtIn : engine.BuiltIn limits)
    (changes : ChangeSet) : engine.analyze changes =
      .ok (reportOf changes (engine.enabledCheckers.map (·.tally changes))
        engine.enabledCheckers.length) := by
  have sound : engine.enabledCheckers.flatMap (·.failures changes) = [] := by
    refine List.flatMap_eq_nil_iff.mpr fun checker member => ?_
    obtain ⟨rule, _, rfl⟩ := builtIn checker (List.mem_filter.mp member).1
    exact rule.checker_failures changes
  rw [Engine.analyze_eq, attemptAll, sound]
  cases engine.policy <;>
    simp only [abortedBy?, unlessAborted, List.head?_nil, Option.map_none, Except.map,
      List.length_map]

theorem mem_reportOf_issues {changes : ChangeSet} {checkers : List Checker} {rulesRun : Nat}
    {issue : Issue} :
    issue ∈ (reportOf changes (checkers.map (·.tally changes)) rulesRun).issues ↔
      ∃ checker ∈ checkers, issue ∈ checker.findings changes := by
  simp [reportOf, Issue.sorted, List.flatMap_map, Checker.tally]

/-- Rules of the library, under whatever limits, report issues that name their place, and the place
lies on the lines of a change in that file. -/
theorem analyze_located (limits : Thresholds) (engine : Engine) (builtIn : engine.BuiltIn limits)
    (changes : ChangeSet) : ∃ report, engine.analyze changes = .ok report ∧
      ∀ issue ∈ report.issues, changes.Locates issue := by
  refine ⟨_, builtIn.analyze_eq changes, fun issue member => ?_⟩
  obtain ⟨checker, enabled, found⟩ := mem_reportOf_issues.mp member
  obtain ⟨rule, listed, rfl⟩ := builtIn checker (List.mem_filter.mp enabled).1
  exact (allRules_placed limits rule listed).findings_located changes issue found

theorem ofRules_builtIn (limits : Thresholds) : (ofRules (allRules limits)).BuiltIn limits := by
  intro checker member
  obtain ⟨rule, listed, rfl⟩ := List.mem_map.mp member
  exact ⟨rule, listed, rfl⟩

/-- A global variable that is no longer there. -/
def removedGlobal : ChangeSet where
  declarations :=
    [{ edit := .removed, name := "gLevel", file := "gvl.st", line := 4, scope := .global }]

theorem analyze_located_removedGlobal :
    ∃ report, (ofRules (allRules {})).analyze removedGlobal = .ok report ∧
      (∀ issue ∈ report.issues, removedGlobal.Locates issue) ∧
      ∃ issue ∈ report.issues, issue.ruleId = "QA021" ∧ issue.location = "gvl.st:4" := by
  have builtIn := ofRules_builtIn {}
  obtain ⟨report, done, located⟩ := analyze_located {} (ofRules (allRules {})) builtIn removedGlobal
  refine ⟨report, done, located, ?_⟩
  obtain rfl := Except.ok.inj ((builtIn.analyze_eq removedGlobal).symm.trans done)
  have listed : globalLifetime ∈ allRules {} :=
    List.mem_append_left _ (List.mem_iff_getElem.mpr ⟨20, by decide, rfl⟩)
  have enabled : globalLifetime.checker ∈ (ofRules (allRules {})).enabledCheckers :=
    List.mem_filter.mpr ⟨List.mem_map.mpr ⟨_, listed, rfl⟩, rfl⟩
  exact ⟨_, mem_reportOf_issues.mpr ⟨_, enabled, List.mem_cons_self⟩, rfl, by decide⟩

end Engine

end PlcAudit.Review
