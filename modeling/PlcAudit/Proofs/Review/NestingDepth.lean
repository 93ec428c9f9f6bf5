import PlcAudit.Proofs.Code.Outline
import PlcAudit.Proofs.Review.Keyword

/-!
The nesting depth that is read off a code. A line counts as an opening or as a closing, never as
both. So a structure that stands in one line is counted where it opens and never where it closes,
and whatever stands below it is counted one level deeper than it is.
-/

namespace PlcAudit.Review

open Code Pattern

inductive ControlStructure where
  | branch
  | countedLoop
  | whileLoop
  | selection
  | repeatLoop

namespace ControlStructure

def keyword : ControlStructure → String
  | branch => "IF"
  | countedLoop => "FOR"
  | whileLoop => "WHILE"
  | selection => "CASE"
  | repeatLoop => "REPEAT"

def ending : ControlStructure → String
  | branch => "END_IF"
  | countedLoop => "END_FOR"
  | whileLoop => "END_WHILE"
  | selection => "END_CASE"
  | repeatLoop => "UNTIL"

def all : List ControlStructure :=
  [branch, countedLoop, whileLoop, selection, repeatLoop]

theorem mem_all (kind : ControlStructure) : kind ∈ all := by
  cases kind <;> simp [all]

end ControlStructure

/-- Lines that stand for themselves are simple, or hold a structure from its opening to its closing
keyword. -/
def nestingLayout : Layout where
  Role := Option ControlStructure
  Kind := ControlStructure
  stands
    | none, line => ∀ kind : ControlStructure,
      ¬ Begins line kind.keyword ∧ ¬ Begins line kind.ending
    | some kind, line => Begins line kind.keyword ∧ Holds line kind.ending
  opens kind line := Begins line kind.keyword
  closes kind line := Begins line kind.ending

/-- A structure in a code, with the number of structures that it stands in, itself included. -/
structure Nested where
  depth : Nat
  line : Nat
  /-- It stands in one line. -/
  complete : Bool

/-- The structures of a code in the order of their lines. -/
def nestedFrom : Nat → Nat → Outline nestingLayout → List Nested
  | _, _, .done => []
  | depth, start, .line none _ _ rest => nestedFrom depth (start + 1) rest
  | depth, start, .line (some _) _ _ rest =>
    { depth := depth + 1, line := start, complete := true } :: nestedFrom depth (start + 1) rest
  | depth, start, .block _ _ _ body _ _ rest =>
    { depth := depth + 1, line := start, complete := false } ::
      (nestedFrom (depth + 1) (start + 1) body ++
        nestedFrom depth (start + 1 + body.lines.length + 1) rest)

def nested (outline : Outline nestingLayout) : List Nested :=
  nestedFrom 0 0 outline

/-- Depths and lines of structures. -/
def levels (structures : List Nested) : List (Nat × Nat) :=
  structures.map fun entry => (entry.depth, entry.line)

/-- How many structures above a line stand in one line. -/
def completeAbove (structures : List Nested) (line : Nat) : Nat :=
  structures.countP fun entry => entry.complete && decide (entry.line < line)

/-- Depths and lines of structures, as they are counted. -/
def countedLevels (structures : List Nested) : List (Nat × Nat) :=
  structures.map fun entry => (entry.depth + completeAbove structures entry.line, entry.line)

/-- The greatest depth, with the first line that reaches it; without structures it is 0, at the
first line. -/
structure Deepest (levels : List (Nat × Nat)) (result : Nat × Nat) : Prop where
  reached : result ∈ levels ∨ levels = [] ∧ result = (0, 0)
  bounds : ∀ level ∈ levels, level.1 ≤ result.1
  first : ∀ level ∈ levels, level.1 = result.1 → result.2 ≤ level.2

/-! Lines that open and close structures -/

section

variable {line : String}

theorem openingPattern_eq : openingPattern =
    (wordsExpr .textStart (ControlStructure.all.map (·.keyword))).program :=
  compile_of_parse (by decide +kernel)

theorem closingPattern_eq : closingPattern =
    (wordsExpr .textStart (ControlStructure.all.map (·.ending))).program :=
  compile_of_parse (by decide +kernel)

theorem opening_iff : openingPattern.isMatch (bareLine line) = true ↔
    ∃ kind : ControlStructure, Begins line kind.keyword := by
  rw [openingPattern_eq, isMatch_start_words_iff (by decide) (by decide)]
  simp [ControlStructure.mem_all, Begins]

theorem closing_iff : closingPattern.isMatch (bareLine line) = true ↔
    ∃ kind : ControlStructure, Begins line kind.ending := by
  rw [closingPattern_eq, isMatch_start_words_iff (by decide) (by decide)]
  simp [ControlStructure.mem_all, Begins]

/-- The keywords that open structures begin with other letters than those that close them. -/
theorem not_begins_both {kind other : ControlStructure} (opens : Begins line kind.keyword) :
    ¬ Begins line other.ending := by
  intro closes
  cases kind <;> cases other <;>
    exact absurd (opens.reads.letter_eq closes.reads rfl rfl (by decide)) (by decide)

end

/-! One line after the other -/

/-- The deeper of two levels, the first one if they are equal. -/
def deeper (best level : Nat × Nat) : Nat × Nat :=
  if best.1 < level.1 then level else best

/-- The state of the count at a depth, with the greatest depth before. -/
def NestingState.at (depth : Nat) (best : Nat × Nat) : NestingState :=
  { depth, deepest := best.1, deepestLine := best.2 }

/-- The state behind lines. -/
def NestingState.after (state : NestingState) (start : Nat) (lines : List String) : NestingState :=
  (placed bareLine start lines).foldl (fun state (line, index) => state.next line index) state

theorem maxNesting_eq (code : String) :
    maxNesting code =
      let last := (NestingState.at 0 (0, 0)).after 0 (Text.lines code)
      (last.deepest, last.deepestLine) := by
  rw [maxNesting, bareLines_eq]
  rfl

namespace NestingState

variable {line : String} {depth start : Nat} {best : Nat × Nat}

theorem after_append (state : NestingState) (start : Nat) (front back : List String) :
    state.after start (front ++ back) =
      (state.after start front).after (start + front.length) back := by
  rw [after, placed_append, List.foldl_append]
  rfl

theorem after_cons (state : NestingState) (start : Nat) (line : String) (rest : List String) :
    state.after start (line :: rest) =
      (state.next (bareLine line) start).after (start + 1) rest := by
  simp only [after, placed_cons, List.foldl_cons]

theorem next_simple (simple : nestingLayout.stands none line) (state : NestingState) :
    state.next (bareLine line) start = state := by
  have unclosed : ¬ closingPattern.isMatch (bareLine line) = true := by
    rw [closing_iff]
    rintro ⟨kind, closes⟩
    exact (simple kind).2 closes
  have unopened : ¬ openingPattern.isMatch (bareLine line) = true := by
    rw [opening_iff]
    rintro ⟨kind, opens⟩
    exact (simple kind).1 opens
  rw [next, if_neg unclosed, if_neg unopened]

theorem next_opening {kind : ControlStructure} (opens : Begins line kind.keyword) :
    (NestingState.at depth best).next (bareLine line) start =
      .at (depth + 1) (deeper best (depth + 1, start)) := by
  have unclosed : ¬ closingPattern.isMatch (bareLine line) = true := by
    rw [closing_iff]
    rintro ⟨other, closes⟩
    exact not_begins_both opens closes
  rw [next, if_neg unclosed, if_pos (opening_iff.mpr ⟨kind, opens⟩)]
  by_cases further : best.1 < depth + 1
  · simp [NestingState.at, deeper, further]
  · simp [NestingState.at, deeper, further]

theorem next_closing {kind : ControlStructure} (closes : Begins line kind.ending) :
    (NestingState.at (depth + 1) best).next (bareLine line) start = .at depth best := by
  rw [next, if_pos (closing_iff.mpr ⟨kind, closes⟩)]
  rfl

end NestingState

/-! The levels that are visited -/

/-- The levels of structures below others, as they are counted one after the other. -/
def levelsBelow : Nat → List Nested → List (Nat × Nat)
  | _, [] => []
  | above, entry :: rest =>
    (entry.depth + above, entry.line) :: levelsBelow (above + entry.complete.toNat) rest

section

variable {above : Nat} {structures front back : List Nested}

theorem levelsBelow_append : levelsBelow above (front ++ back) =
    levelsBelow above front ++ levelsBelow (above + front.countP (·.complete)) back := by
  induction front generalizing above with
  | nil => rfl
  | cons entry rest ih =>
    rw [List.cons_append, levelsBelow, ih, List.countP_cons, levelsBelow, List.cons_append,
      Nat.add_assoc, Nat.add_comm (List.countP ..)]
    cases entry.complete <;> rfl

/-- Behind a code the count is at the depth where it began, one level deeper for each structure that
stands in one line. -/
theorem after_lines (outline : Outline nestingLayout) (depth above start : Nat) (best : Nat × Nat) :
    (NestingState.at (depth + above) best).after start outline.lines =
      .at (depth + (above + (nestedFrom depth start outline).countP (·.complete)))
        ((levelsBelow above (nestedFrom depth start outline)).foldl deeper best) := by
  induction outline generalizing depth above start best with
  | done => rfl
  | line role text stands rest ih =>
    rw [Outline.lines, NestingState.after_cons]
    cases role with
    | none => rw [NestingState.next_simple stands, ih, nestedFrom]
    | some kind =>
      have level : depth + 1 + above = depth + (above + 1) := by omega
      rw [NestingState.next_opening stands.1, Nat.add_assoc, ih, nestedFrom, levelsBelow,
        List.foldl_cons, List.countP_cons_of_pos rfl, level, Nat.add_right_comm above,
        Nat.add_assoc above]
      rfl
  | block kind head opens body foot closes rest body_ih rest_ih =>
    rw [Outline.lines, NestingState.after_cons, NestingState.next_opening opens,
      Nat.add_right_comm, NestingState.after_append, body_ih, NestingState.after_cons,
      Nat.add_right_comm, NestingState.next_closing closes, rest_ih, nestedFrom, levelsBelow,
      List.foldl_cons, levelsBelow_append, List.foldl_append,
      List.countP_cons_of_neg Bool.false_ne_true, List.countP_append, ← Nat.add_assoc above]
    rfl

end

section

variable {structures seen rest : List Nested} {result : Nat × Nat}

/-- Structures stand at the lines of the code, one below the other. -/
theorem nestedFrom_lines (outline : Outline nestingLayout) (depth start : Nat) :
    ((nestedFrom depth start outline).map (·.line)).Sublist
      (List.range' start outline.lines.length) := by
  induction outline generalizing depth start with
  | done => exact List.Sublist.refl _
  | line role _ _ rest ih =>
    rw [Outline.lines, List.length_cons, List.range'_succ]
    cases role with
    | none => exact (ih depth (start + 1)).cons _
    | some kind => exact (ih depth (start + 1)).cons_cons _
  | block _ _ _ body _ _ rest body_ih rest_ih =>
    rw [Outline.lines, List.length_cons, List.range'_succ, List.length_append, List.length_cons,
      ← List.range'_append_1, List.range'_succ, nestedFrom, List.map_cons, List.map_append]
    exact ((body_ih _ _).append ((rest_ih _ _).cons _)).cons_cons _

theorem nested_increasing (outline : Outline nestingLayout) :
    (nested outline).Pairwise fun one other => one.line < other.line :=
  List.pairwise_map.mp
    (List.Pairwise.sublist (nestedFrom_lines outline 0 0) List.pairwise_lt_range')

theorem lt_depth_of_mem {outline : Outline nestingLayout} {depth start : Nat} {entry : Nested}
    (member : entry ∈ nestedFrom depth start outline) : depth < entry.depth := by
  induction outline generalizing depth start with
  | done => cases member
  | line role _ _ rest ih =>
    cases role with
    | none => exact ih member
    | some kind =>
      rcases List.mem_cons.mp member with rfl | below
      · exact Nat.lt_succ_self depth
      · exact ih below
  | block _ _ _ body _ _ rest body_ih rest_ih =>
    rcases List.mem_cons.mp member with rfl | later
    · exact Nat.lt_succ_self depth
    · rcases List.mem_append.mp later with inside | below
      · exact Nat.lt_of_succ_lt (body_ih inside)
      · exact rest_ih below

/-- Structures that are listed before another one stand above it, and those behind do not. -/
theorem completeAbove_eq {entry : Nested}
    (increasing : (seen ++ entry :: rest).Pairwise fun one other => one.line < other.line) :
    completeAbove (seen ++ entry :: rest) entry.line = seen.countP (·.complete) := by
  obtain ⟨-, later, before⟩ := List.pairwise_append.mp increasing
  have below : (entry :: rest).countP
      (fun other => other.complete && decide (other.line < entry.line)) = 0 := by
    refine List.countP_eq_zero.mpr fun other member => ?_
    rcases List.mem_cons.mp member with rfl | behind
    · simp
    · have order := List.rel_of_pairwise_cons later behind
      simp [Nat.le_of_lt order]
  rw [completeAbove, List.countP_append, below, Nat.add_zero]
  refine List.countP_congr fun other member => ?_
  simp [before other member entry List.mem_cons_self]

theorem levelsBelow_eq
    (increasing : (seen ++ rest).Pairwise fun one other => one.line < other.line) :
    levelsBelow (seen.countP (·.complete)) rest =
      rest.map fun entry =>
        (entry.depth + completeAbove (seen ++ rest) entry.line, entry.line) := by
  induction rest generalizing seen with
  | nil => rfl
  | cons entry rest ih =>
    have later := @ih (seen ++ [entry]) (by simpa using increasing)
    rw [List.countP_append, List.countP_singleton, List.append_assoc,
      List.singleton_append] at later
    rw [levelsBelow, List.map_cons, completeAbove_eq increasing, ← later]
    cases entry.complete <;> rfl

theorem countedLevels_eq (increasing : structures.Pairwise fun one other => one.line < other.line) :
    countedLevels structures = levelsBelow 0 structures :=
  (@levelsBelow_eq [] structures increasing).symm

end

/-! The deepest level -/

section

variable {visited : List (Nat × Nat)} {level result : Nat × Nat}

/-- A level below the others is the deepest if it is deeper than all of them. -/
theorem Deepest.snoc (deepest : Deepest visited result) (positive : 0 < level.1)
    (below : ∀ above ∈ visited, above.2 < level.2) :
    Deepest (visited ++ [level]) (deeper result level) := by
  by_cases further : result.1 < level.1
  · rw [deeper, if_pos further]
    have shallower : ∀ above ∈ visited, above.1 < level.1 := fun above member =>
      Nat.lt_of_le_of_lt (deepest.bounds above member) further
    refine ⟨.inl List.mem_concat_self, ?_, ?_⟩
    · exact List.forall_mem_append.mpr ⟨fun above member => Nat.le_of_lt (shallower above member),
        List.forall_mem_singleton.mpr (Nat.le_refl _)⟩
    · exact List.forall_mem_append.mpr
        ⟨fun above member same => absurd same (Nat.ne_of_lt (shallower above member)),
          List.forall_mem_singleton.mpr fun _ => Nat.le_refl _⟩
  · rw [deeper, if_neg further]
    have reached : result ∈ visited := by
      refine deepest.reached.resolve_right fun ⟨_, start⟩ => further ?_
      rwa [start]
    refine ⟨.inl (List.mem_append_left _ reached), ?_, ?_⟩
    · exact List.forall_mem_append.mpr
        ⟨deepest.bounds, List.forall_mem_singleton.mpr (Nat.le_of_not_lt further)⟩
    · exact List.forall_mem_append.mpr ⟨deepest.first,
        List.forall_mem_singleton.mpr fun _ => Nat.le_of_lt (below result reached)⟩

theorem deepest_foldl (positive : ∀ level ∈ visited, 0 < level.1)
    (increasing : visited.Pairwise fun one other => one.2 < other.2) :
    Deepest visited (visited.foldl deeper (0, 0)) := by
  induction visited using List.reverseRecOn with
  | nil => exact ⟨.inr ⟨rfl, rfl⟩, nofun, nofun⟩
  | append_singleton front level ih =>
    obtain ⟨before, -, below⟩ := List.pairwise_append.mp increasing
    have shallower := ih (fun other member => positive other (List.mem_append_left _ member)) before
    rw [List.foldl_concat]
    exact shallower.snoc (positive level List.mem_concat_self)
      fun above member => below above member level (List.mem_singleton_self level)

end

section

variable {structures : List Nested} {result : Nat × Nat}

theorem completeAbove_mono {line line' : Nat} (order : line ≤ line') :
    completeAbove structures line ≤ completeAbove structures line' := by
  refine List.countP_mono_left fun entry _ above => ?_
  simp only [Bool.and_eq_true, decide_eq_true_eq] at above ⊢
  exact ⟨above.1, Nat.lt_of_lt_of_le above.2 order⟩

theorem mem_countedLevels {entry : Nested} (member : entry ∈ structures) :
    (entry.depth + completeAbove structures entry.line, entry.line) ∈ countedLevels structures :=
  List.mem_map_of_mem member

/-- The counted depth is the real one if no structure is counted deeper than the deepest one is. -/
theorem deepest_levels_iff (counted : Deepest (countedLevels structures) result) :
    Deepest (levels structures) result ↔
      ∀ level ∈ countedLevels structures, ∃ deep ∈ structures, level.1 ≤ deep.depth := by
  constructor
  · intro deepest level member
    rcases deepest.reached with reached | ⟨none, -⟩
    · obtain ⟨deep, listed, rfl⟩ := List.mem_map.mp reached
      exact ⟨deep, listed, counted.bounds level member⟩
    · rw [countedLevels, List.map_eq_nil_iff.mp none] at member
      cases member
  · intro covered
    rcases counted.reached with reached | ⟨none, start⟩
    · obtain ⟨entry, listed, rfl⟩ := List.mem_map.mp reached
      obtain ⟨deep, member, covers⟩ := covered _ reached
      have bound := counted.bounds _ (mem_countedLevels member)
      have order := counted.first _ (mem_countedLevels member) (by dsimp only at *; omega)
      -- No complete structure stands above the deepest one, and so none above this one.
      have fewer := @completeAbove_mono structures _ _ order
      dsimp only at covers bound fewer
      have none : completeAbove structures entry.line = 0 := by omega
      rw [none, Nat.add_zero] at counted ⊢
      refine ⟨.inl (List.mem_map_of_mem listed), List.forall_mem_map.mpr fun other member => ?_,
        List.forall_mem_map.mpr fun other member same => ?_⟩
      · exact Nat.le_trans (Nat.le_add_right ..) (counted.bounds _ (mem_countedLevels member))
      · have bound := counted.bounds _ (mem_countedLevels member)
        have first := counted.first _ (mem_countedLevels member)
        dsimp only at bound first same
        exact first (by omega)
    · rw [List.map_eq_nil_iff.mp none]
      exact ⟨.inr ⟨rfl, start⟩, nofun, nofun⟩

end

theorem maxNesting_deepest {outline : Outline nestingLayout} {code : String}
    (laidOut : outline.LaysOut code) :
    Deepest (countedLevels (nested outline)) (maxNesting code) := by
  have read := after_lines outline 0 0 0 (0, 0)
  rw [← laidOut] at read
  rw [maxNesting_eq]
  dsimp only
  rw [read, ← nested, ← countedLevels_eq (nested_increasing outline)]
  refine deepest_foldl (List.forall_mem_map.mpr fun entry member => ?_)
    (List.pairwise_map.mpr (nested_increasing outline))
  exact Nat.lt_of_lt_of_le (lt_depth_of_mem member) (Nat.le_add_right ..)

theorem deepNesting_logicIssues_iff {limit : Nat} {change : LogicChange} {code : String}
    (checked : change.codeToCheck? = some code) :
    (deepNesting limit).logicIssues change ≠ [] ↔ limit < (maxNesting code).1 := by
  simp only [Rule.logicIssues, deepNesting, checked, Option.getD_some, ne_eq, List.map_eq_nil_iff]
  by_cases shallow : (maxNesting code).1 ≤ limit
  · simp [shallow]
  · simp [shallow, Nat.lt_of_not_le shallow]

/-- The depth that is read off a code counts each structure one level deeper for each structure
above it that stands in one line. It is the depth of the code, with the first line that reaches it,
exactly if no structure is counted deeper than the deepest one really is. -/
theorem maxNesting_counts_complete {outline : Outline nestingLayout} {code : String}
    (laidOut : outline.LaysOut code) :
    Deepest (countedLevels (nested outline)) (maxNesting code) ∧
    (Deepest (levels (nested outline)) (maxNesting code) ↔
      ∀ level ∈ countedLevels (nested outline), ∃ deep ∈ nested outline, level.1 ≤ deep.depth) ∧
    ∀ (limit : Nat) (change : LogicChange), change.codeToCheck? = some code →
      ((deepNesting limit).logicIssues change ≠ [] ↔
        ∃ level ∈ countedLevels (nested outline), limit < level.1) := by
  have counted := maxNesting_deepest laidOut
  refine ⟨counted, deepest_levels_iff counted, fun limit change checked => ?_⟩
  rw [deepNesting_logicIssues_iff checked]
  constructor
  · intro deep
    rcases counted.reached with reached | ⟨-, start⟩
    · exact ⟨_, reached, deep⟩
    · rw [start] at deep
      cases deep
  · rintro ⟨level, member, deep⟩
    exact Nat.lt_of_lt_of_le deep (counted.bounds level member)

instance (kind : ControlStructure) (line : String) : Decidable (nestingLayout.opens kind line) :=
  inferInstanceAs (Decidable (Begins ..))

instance (kind : ControlStructure) (line : String) : Decidable (nestingLayout.closes kind line) :=
  inferInstanceAs (Decidable (Begins ..))

/-- A structure in one line inside another structure. -/
def enclosedBranch : Outline nestingLayout :=
  .block .countedLoop "FOR i := 1 TO 3 DO" (by decide)
    (.line (some .branch) "  if a then x := i; end_if" ⟨by decide, 18, by decide⟩ .done)
    "END_FOR" (by decide) .done

def enclosedCode : String :=
  "FOR i := 1 TO 3 DO\n  if a then x := i; end_if\nEND_FOR"

theorem maxNesting_counts_complete_enclosedBranch :
    enclosedBranch.LaysOut enclosedCode ∧
      Deepest (levels (nested enclosedBranch)) (maxNesting enclosedCode) := by
  have laidOut : enclosedBranch.LaysOut enclosedCode := by
    unfold Outline.LaysOut
    decide +kernel
  refine ⟨laidOut, (maxNesting_counts_complete laidOut).2.1.mpr ?_⟩
  decide

/-- Two structures in one line each, one below the other. -/
def separateBranches : Outline nestingLayout :=
  .line (some .branch) "IF a THEN x := 1; END_IF" ⟨by decide, 18, by decide⟩
    (.line (some .branch) "IF b THEN y := 1; END_IF" ⟨by decide, 18, by decide⟩ .done)

def separateBranchesCode : String :=
  "IF a THEN x := 1; END_IF\nIF b THEN y := 1; END_IF"

/-- The second of them is taken to stand in the first one. -/
theorem separateBranches_counted_nested :
    separateBranches.LaysOut separateBranchesCode ∧ maxNesting separateBranchesCode = (2, 1) ∧
      levels (nested separateBranches) = [(1, 0), (1, 1)] ∧
      ¬ Deepest (levels (nested separateBranches)) (maxNesting separateBranchesCode) := by
  have counted : maxNesting separateBranchesCode = (2, 1) := by decide +kernel
  refine ⟨?_, counted, rfl, fun deepest => ?_⟩
  · unfold Outline.LaysOut
    decide +kernel
  · rw [counted] at deepest
    exact absurd deepest.reached (by decide)

end PlcAudit.Review
