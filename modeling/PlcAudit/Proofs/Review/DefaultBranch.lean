import PlcAudit.Proofs.Code.Outline
import PlcAudit.Proofs.Review.Keyword
import PlcAudit.Proofs.Review.Location

/-!
Selections and their default branches. The heads of selections are kept on a stack, and the
conditionals that are open in the innermost selection are counted, so that an `ELSE` is given to the
structure it stands in. The stack is right as long as every selection is recognized at its head. A
head is recognized only if its selector is a single name.
-/

namespace PlcAudit.Review

open Code Pattern

/-! Selections as they are laid out -/

inductive BranchKind where
  | selection
  | conditional

/-- What a line that stands for itself can be. -/
inductive BranchRole where
  | plain
  | default
  /-- A conditional from its opening to its closing keyword. -/
  | complete

/-- The keywords that no plain line begins with. -/
def branchKeywords : List String :=
  ["CASE", "END_CASE", "ELSE", "IF", "END_IF"]

/-- Selections and conditionals open and close with lines of their own, and so does what is done
by default. -/
def branchLayout : Layout where
  Role := BranchRole
  Kind := BranchKind
  stands
    | .plain, line => ∀ word ∈ branchKeywords, ¬ Begins line word
    | .default, line => Begins line "ELSE"
    | .complete, line => Begins line "IF" ∧ Holds line "END_IF"
  opens
    | .selection, line => Begins line "CASE"
    | .conditional, line => Begins line "IF"
  closes
    | .selection, line => Begins line "END_CASE"
    | .conditional, line => Begins line "END_IF"

/-- There is an `ELSE` that belongs to no structure of the code. -/
def hasDefault : Outline branchLayout → Bool
  | .done => false
  | .line .default _ _ _ => true
  | .line _ _ _ rest => hasDefault rest
  | .block _ _ _ _ _ _ rest => hasDefault rest

/-- The lines of the selections without an `ELSE` of their own, in the order of their ends. -/
def undefaulted : Nat → Outline branchLayout → List Nat
  | _, .done => []
  | start, .line _ _ _ rest => undefaulted (start + 1) rest
  | start, .block .conditional _ _ body _ _ rest =>
    undefaulted (start + 1) body ++ undefaulted (start + 1 + body.lines.length + 1) rest
  | start, .block .selection _ _ body _ _ rest =>
    undefaulted (start + 1) body ++ ((if hasDefault body then [] else [start]) ++
      undefaulted (start + 1 + body.lines.length + 1) rest)

/-- The line is the head of a selection by a name: `CASE`, the name and `OF`, with blanks in
between. -/
structure NamedHead (line : String) : Prop where
  keyword : Reads (bareLine line).toList "CASE" 0
  named : ∃ blanks name gap ending : List Char,
    (bareLine line).toList.drop "CASE".length = blanks ++ (name ++ (gap ++ ending)) ∧
      (blanks ≠ [] ∧ ∀ c ∈ blanks, Text.isBlank c = true) ∧
      (name ≠ [] ∧ ∀ c ∈ name, Text.isWord c = true) ∧
      (gap ≠ [] ∧ ∀ c ∈ gap, Text.isBlank c = true) ∧ Reads ending "OF" 0

/-- The letters of `END_IF` stand in the line, be it in a longer word. -/
def ReadsEndIf (line : String) : Prop :=
  ∃ start, Reads (bareLine line).toList "END_IF" start

/-- The line is not taken for one that opens or closes a conditional. -/
def Unconditional (line : String) : Prop :=
  ¬ Holds line "IF" ∧ ¬ ReadsEndIf line

/-- Every selection has a name as its selector, and conditionals are opened and closed nowhere but
where they look like it. -/
def Legible : Outline branchLayout → Prop
  | .done => True
  | .line .complete _ _ rest => Legible rest
  | .line _ text _ rest => Unconditional text ∧ Legible rest
  | .block .selection head _ body _ _ rest => NamedHead head ∧ Legible body ∧ Legible rest
  | .block .conditional head _ body foot _ rest =>
    ¬ ReadsEndIf head ∧ ¬ Holds foot "IF" ∧ Legible body ∧ Legible rest

/-! Heads of selections -/

def caseHeadExpr : Expr :=
  .sequence (.anchor .textStart) (literally "CASE" (.sequence (someOf blankChars)
    (.sequence (someOf wordChars) (.sequence (someOf blankChars) (literally "OF" .empty)))))

theorem caseHeadPattern_eq : caseHeadPattern = caseHeadExpr.program :=
  compile_of_parse (by decide +kernel)

section

variable {line : String} {text : List Char} {word : String}

theorem reads_drop_iff {start place : Nat} :
    Reads (text.drop start) word place ↔ Reads text word (start + place) := by
  simp only [Reads, List.getElem?_drop, Nat.add_assoc]

theorem namedHead_iff : caseHeadPattern.isMatch (bareLine line) = true ↔ NamedHead line := by
  rw [caseHeadPattern_eq, Expr.isMatch_iff]
  constructor
  · rintro ⟨start, -, stop, notes, whole⟩
    obtain ⟨inner, matched, rfl⟩ := Expr.matches_group_iff.mp whole
    obtain ⟨_, _, edge, matched⟩ := Expr.matches_sequence_iff.mp matched
    obtain ⟨ahead, rfl, rfl⟩ := Expr.matches_anchor_iff.mp edge
    obtain ⟨keyword, matched⟩ := matches_literally_iff.mp matched
    obtain rfl := (textStart_iff keyword (by decide)).mp ahead
    obtain ⟨first, _, before, matched⟩ := Expr.matches_sequence_iff.mp matched
    obtain ⟨⟨nonempty, front⟩, rfl⟩ := matches_someOf_iff.mp before
    obtain ⟨last, _, named, matched⟩ := Expr.matches_sequence_iff.mp matched
    obtain ⟨⟨nonempty', inside⟩, rfl⟩ := matches_someOf_iff.mp named
    obtain ⟨mark, _, behind, matched⟩ := Expr.matches_sequence_iff.mp matched
    obtain ⟨⟨nonempty'', back⟩, rfl⟩ := matches_someOf_iff.mp behind
    obtain ⟨ending, -, -⟩ := matches_word_iff.mp matched
    obtain ⟨blanks, here, begins, blank⟩ := exists_piece_of_spans front
    obtain ⟨name, later, ends, letters⟩ := exists_piece_of_spans inside
    obtain ⟨gap, rest, reaches, blank'⟩ := exists_piece_of_spans back
    rw [Nat.zero_add] at here begins nonempty
    refine ⟨keyword, blanks, name, gap, (bareLine line).toList.drop mark, ?_, ⟨?_, ?_⟩, ⟨?_, ?_⟩,
      ⟨?_, ?_⟩, reads_drop_iff.mpr ending⟩
    · rw [here, later, rest]
    · exact List.ne_nil_of_length_pos (by omega)
    · simpa using blank
    · exact List.ne_nil_of_length_pos (by omega)
    · simpa using letters
    · exact List.ne_nil_of_length_pos (by omega)
    · simpa using blank'
  · rintro ⟨keyword, blanks, name, gap, ending, here, ⟨nonempty, blank⟩, ⟨nonempty', letters⟩,
      ⟨nonempty'', blank'⟩, reads⟩
    have later := drop_behind here
    have rest := drop_behind later
    have mark := drop_behind rest
    have front := spans_of_drop blanks here fun c member => by
      rw [blankChars_contains, blank c member]
    have inside := spans_of_drop name later fun c member => by
      rw [wordChars_contains, letters c member]
    have back := spans_of_drop gap rest fun c member => by
      rw [blankChars_contains, blank' c member]
    have edge : Anchor.textStart.holds (before? (bareLine line).toList 0) _ = true :=
      (textStart_iff keyword (by decide)).mpr rfl
    rw [← mark, reads_drop_iff, Nat.add_zero] at reads
    have ended (notes : Notes) : (literally "OF" .empty).Matches _ _ notes _ notes :=
      matches_word_iff.mpr ⟨reads, rfl, rfl⟩
    have separated (notes : Notes) : (someOf blankChars).Matches _ _ notes _ notes :=
      matches_someOf_iff.mpr
        ⟨⟨Nat.lt_add_of_pos_right (List.length_pos_iff.mpr nonempty''), back⟩, rfl⟩
    have selected (notes : Notes) : (someOf wordChars).Matches _ _ notes _ notes :=
      matches_someOf_iff.mpr
        ⟨⟨Nat.lt_add_of_pos_right (List.length_pos_iff.mpr nonempty'), inside⟩, rfl⟩
    have begun (notes : Notes) : (someOf blankChars).Matches _ _ notes _ notes :=
      matches_someOf_iff.mpr
        ⟨⟨Nat.lt_add_of_pos_right (List.length_pos_iff.mpr nonempty), front⟩, rfl⟩
    have tail (notes : Notes) := (begun notes).sequence
      ((selected notes).sequence ((separated notes).sequence (ended notes)))
    have whole (notes : Notes) := matches_literally_iff.mpr
      ⟨keyword, (Nat.zero_add "CASE".length).symm ▸ tail notes⟩
    exact ⟨0, Nat.zero_le _, _, _, .group (.sequence (.anchor edge) (whole _))⟩

/-! Keywords in upper case -/

theorem toUpper_toUpper (c : Char) : c.toUpper.toUpper = c.toUpper := by
  rw [← Char.toNat_inj, toNat_toUpper, toNat_toUpper]
  by_cases lower : 97 ≤ c.toNat ∧ c.toNat ≤ 122
  · rw [if_pos lower, if_neg (by omega)]
  · rw [if_neg lower, if_neg lower]

theorem reads_upper_iff {start : Nat} (capital : isCapital word = true) :
    Reads (text.map Char.toUpper) word start ↔ Reads text word start := by
  rw [reads_iff_upper capital, reads_iff_upper capital, ← List.map_drop, List.map_map]
  simp only [Function.comp_def, toUpper_toUpper]

theorem wordAt_upper_iff {start : Nat} (capital : isCapital word = true) :
    WordAt (text.map Char.toUpper) word start ↔ WordAt text word start := by
  have any_upper (read : Option Char) :
      (read.map Char.toUpper).any Text.isWord = read.any Text.isWord := by
    cases read with
    | none => rfl
    | some c => exact isWord_toUpper c
  have before : (before? (text.map Char.toUpper) start).any Text.isWord =
      (before? text start).any Text.isWord := by
    rw [before?, before?]
    split
    · rfl
    · rw [List.getElem?_map, any_upper]
  have behind (place : Nat) : (text.map Char.toUpper)[place]?.any Text.isWord =
      text[place]?.any Text.isWord := by
    rw [List.getElem?_map, any_upper]
  constructor
  · intro here
    exact ⟨(reads_upper_iff capital).mp here.reads, before ▸ here.before, behind _ ▸ here.behind⟩
  · intro here
    exact ⟨(reads_upper_iff capital).mpr here.reads, before ▸ here.before, behind _ ▸ here.behind⟩

theorem opens_iff : ifPattern.isMatch (Text.upper (bareLine line)) = true ↔ Holds line "IF" := by
  rw [ifPattern_eq, findsIf.isMatch_iff]
  simp only [List.mem_singleton, exists_eq_left]
  refine exists_congr fun start => ?_
  rw [Text.upper, String.toList_ofList, wordAt_upper_iff (by decide)]

theorem contains_upper_iff {source : String} (capital : isCapital word = true) :
    Text.contains (Text.upper source) word = true ↔ ∃ start, Reads source.toList word start := by
  rw [Text.contains_iff_infix, Text.upper, String.toList_ofList]
  constructor
  · rintro ⟨front, back, same⟩
    refine ⟨front.length, (reads_iff_upper capital).mpr ⟨back, ?_⟩⟩
    rw [List.map_drop, ← same, List.append_assoc, List.drop_left]
  · rintro ⟨start, reads⟩
    have starts := (reads_iff_upper capital).mp reads
    rw [List.map_drop] at starts
    exact starts.isInfix.trans (List.drop_suffix _ _).isInfix

theorem closes_iff :
    Text.contains (Text.upper (bareLine line)) "END_IF" = true ↔ ReadsEndIf line :=
  contains_upper_iff (by decide)

theorem elsePattern_eq : elsePattern = (wordExpr .textStart "ELSE").program :=
  compile_of_parse (by decide +kernel)

theorem endCasePattern_eq : endCasePattern = (wordExpr .textStart "END_CASE").program :=
  compile_of_parse (by decide +kernel)

theorem else_iff : elsePattern.isMatch (bareLine line) = true ↔ Begins line "ELSE" := by
  rw [elsePattern_eq]
  exact isMatch_start_word_iff (by decide)

theorem endCase_iff : endCasePattern.isMatch (bareLine line) = true ↔ Begins line "END_CASE" := by
  rw [endCasePattern_eq]
  exact isMatch_start_word_iff (by decide)

theorem NamedHead.begins (head : NamedHead line) : Begins line "CASE" := by
  obtain ⟨keyword, blanks, name, gap, ending, here, ⟨nonempty, blank⟩, -⟩ := head
  refine ⟨keyword, rfl, ?_⟩
  obtain ⟨c, others, rfl⟩ := List.exists_cons_of_ne_nil nonempty
  rw [Nat.zero_add, ← List.head?_drop, here, List.cons_append, List.head?_cons, Option.any_some]
  exact not_isWord_of_isBlank (blank c List.mem_cons_self)

/-- A line does not begin with keywords of different lengths. -/
theorem Begins.length_eq {other : String} (first : Begins line word) (second : Begins line other)
    (keyword : isKeyword word = true) (keyword' : isKeyword other = true) :
    word.length = other.length := by
  have ends := first.eq_of_overlap second keyword keyword' (Nat.le_refl 0)
    (by rw [Nat.zero_add]; exact length_pos_of_isKeyword keyword)
  omega

/-- The line neither starts nor ends a selection. -/
def Passed (line : String) : Prop :=
  ¬ Begins line "CASE" ∧ ¬ Begins line "END_CASE"

theorem passed_of_else (begins : Begins line "ELSE") : Passed line :=
  ⟨fun head => absurd (head.reads.letter_eq begins.reads (c := 'C') (d := 'E') rfl rfl (by decide))
    (by decide), fun foot => absurd (begins.length_eq foot (by decide) (by decide)) (by decide)⟩

/-- The keywords of selections have other lengths than those of conditionals. -/
theorem Begins.passed (begins : Begins line word) (keyword : isKeyword word = true)
    (other : word.length ≠ "CASE".length ∧ word.length ≠ "END_CASE".length) : Passed line :=
  ⟨fun head => other.1 (begins.length_eq head keyword (by decide)),
    fun foot => other.2 (begins.length_eq foot keyword (by decide))⟩

theorem passed_of_if (begins : Begins line "IF") : Passed line :=
  begins.passed (by decide) (by decide)

theorem passed_of_endIf (begins : Begins line "END_IF") : Passed line :=
  begins.passed (by decide) (by decide)

end

/-! One line after the other -/

section

variable {line : String} {current : OpenCase} {stack : List OpenCase} {place start : Nat}
  {rest : List (String × Nat)}

theorem next_unconditional (unconditional : Unconditional line) :
    current.next (bareLine line) =
      if current.conditionals = 0 ∧ Begins line "ELSE" then { current with hasElse := true }
      else current := by
  have unopened := mt opens_iff.mp unconditional.1
  have unclosed := mt closes_iff.mp unconditional.2
  rw [Bool.not_eq_true] at unopened unclosed
  simp [OpenCase.next, unopened, unclosed, else_iff]

theorem next_opening (begins : Begins line "IF") (open_ : ¬ ReadsEndIf line) :
    current.next (bareLine line) = { current with conditionals := current.conditionals + 1 } := by
  have opened := opens_iff.mpr ⟨0, begins⟩
  have unclosed := mt closes_iff.mp open_
  rw [Bool.not_eq_true] at unclosed
  simp [OpenCase.next, opened, unclosed]

theorem next_closing (begins : Begins line "END_IF") (unopened : ¬ Holds line "IF") :
    current.next (bareLine line) = { current with conditionals := current.conditionals - 1 } := by
  have closed := closes_iff.mpr ⟨0, begins.reads⟩
  have unopened := mt opens_iff.mp unopened
  rw [Bool.not_eq_true] at unopened
  simp [OpenCase.next, closed, unopened]

theorem next_complete (begins : Begins line "IF") (ends : Holds line "END_IF") :
    current.next (bareLine line) = current := by
  have opened := opens_iff.mpr ⟨0, begins⟩
  have closed := closes_iff.mpr (ends.imp fun _ here => here.reads)
  have other : ¬ elsePattern.isMatch (bareLine line) = true := by
    rw [else_iff]
    intro default
    exact absurd (begins.length_eq default (by decide) (by decide)) (by decide)
  rw [Bool.not_eq_true] at other
  simp [OpenCase.next, opened, closed, other]

theorem scan_head (head : NamedHead line) :
    casesWithoutElseFrom stack ((bareLine line, place) :: rest) =
      casesWithoutElseFrom ({ start := place } :: stack) rest := by
  conv =>
    lhs
    unfold casesWithoutElseFrom
  rw [if_pos (namedHead_iff.mpr head)]

theorem scan_foot (begins : Begins line "END_CASE") :
    casesWithoutElseFrom (current :: stack) ((bareLine line, place) :: rest) =
      (if current.hasElse then [] else [current.start]) ++ casesWithoutElseFrom stack rest := by
  have unopened : ¬ caseHeadPattern.isMatch (bareLine line) = true := by
    rw [namedHead_iff]
    intro head
    exact absurd (begins.length_eq head.begins (by decide) (by decide)) (by decide)
  conv =>
    lhs
    unfold casesWithoutElseFrom
  rw [if_neg unopened, if_pos (endCase_iff.mpr begins)]
  dsimp only
  split <;> rfl

theorem scan_passed (passed : Passed line) :
    casesWithoutElseFrom stack ((bareLine line, place) :: rest) =
      casesWithoutElseFrom (stack.modifyHead (·.next (bareLine line))) rest := by
  have unopened : ¬ caseHeadPattern.isMatch (bareLine line) = true := by
    rw [namedHead_iff]
    exact fun head => passed.1 head.begins
  conv =>
    lhs
    unfold casesWithoutElseFrom
  rw [if_neg unopened, if_neg (mt endCase_iff.mp passed.2)]
  cases stack <;> rfl

end

/-! Codes that are laid out -/

/-- The selection behind a code that stands in it. -/
def OpenCase.past (outline : Outline branchLayout) (current : OpenCase) : OpenCase :=
  { current with
    hasElse := current.hasElse || (current.conditionals == 0 && hasDefault outline) }

section

variable {outline : Outline branchLayout} {start : Nat}

theorem past_done (current : OpenCase) : current.past .done = current := by
  simp [OpenCase.past, hasDefault]

/-- A code that is laid out leaves the open selections as they were, except that the innermost one
may have got its default branch. -/
theorem scan_outline (legible : Legible outline) (stack : List OpenCase)
    (below : List (String × Nat)) :
    casesWithoutElseFrom stack (placed bareLine start outline.lines ++ below) =
      undefaulted start outline ++
        casesWithoutElseFrom (stack.modifyHead (·.past outline)) below := by
  induction outline generalizing start stack below with
  | done =>
    have same : stack.modifyHead (·.past .done) = stack := by
      cases stack with
      | nil => rfl
      | cons current outer => rw [List.modifyHead_cons, past_done]
    rw [same]
    rfl
  | line role text stands rest ih =>
    rw [Outline.lines, placed_cons, List.cons_append]
    cases role with
    | plain =>
      obtain ⟨unconditional, later⟩ := legible
      have passed : Passed text := ⟨stands _ (by decide), stands _ (by decide)⟩
      have noElse : ¬ Begins text "ELSE" := stands _ (by decide)
      have kept (current : OpenCase) : current.next (bareLine text) = current := by
        rw [next_unconditional unconditional, if_neg fun both => noElse both.2]
      rw [scan_passed passed, ih later, List.modifyHead_modifyHead]
      simp only [Function.comp_def, kept]
      rfl
    | default =>
      obtain ⟨unconditional, later⟩ := legible
      have marked (current : OpenCase) : (current.next (bareLine text)).past rest =
          current.past (.line .default text stands rest) := by
        rw [next_unconditional unconditional]
        by_cases outermost : current.conditionals = 0
        · rw [if_pos ⟨outermost, stands⟩]
          simp [OpenCase.past, outermost, hasDefault]
        · rw [if_neg fun both => outermost both.1]
          simp [OpenCase.past, beq_eq_false_iff_ne.mpr outermost]
      rw [scan_passed (passed_of_else stands), ih later, List.modifyHead_modifyHead]
      simp only [Function.comp_def, marked]
      rfl
    | complete =>
      rw [scan_passed (passed_of_if stands.1), ih legible, List.modifyHead_modifyHead]
      simp only [Function.comp_def, next_complete stands.1 stands.2]
      rfl
  | block kind head opens body foot closes rest body_ih rest_ih =>
    rw [Outline.lines, placed_cons, placed_append, placed_cons, List.cons_append,
      List.append_assoc, List.cons_append]
    cases kind with
    | selection =>
      obtain ⟨named, inside, later⟩ := legible
      have settled : (OpenCase.past body { start }).hasElse = hasDefault body := by
        simp [OpenCase.past]
      rw [scan_head named, body_ih inside, List.modifyHead_cons, scan_foot closes, rest_ih later,
        settled, undefaulted, List.append_assoc, List.append_assoc]
      rfl
    | conditional =>
      obtain ⟨open_, unopened, inside, later⟩ := legible
      -- An `ELSE` in the body belongs to the conditional.
      have left (current : OpenCase) :
          ((current.next (bareLine head)).past body).next (bareLine foot) = current := by
        rw [next_opening opens open_, next_closing closes unopened]
        simp [OpenCase.past]
      rw [scan_passed (passed_of_if opens), body_ih inside, scan_passed (passed_of_endIf closes),
        rest_ih later, List.modifyHead_modifyHead, List.modifyHead_modifyHead,
        List.modifyHead_modifyHead, undefaulted, List.append_assoc]
      simp only [Function.comp_def, left]
      rfl

/-- Reported selections start at heads that name their selectors. -/
theorem namedHead_of_mem {code : String} (reported : start ∈ casesWithoutElse code) :
    ∃ line, (Text.lines code)[start]? = some line ∧ NamedHead line := by
  have bareLines := bareLines_eq code
  refine casesWithoutElseFrom_starts
    (fun place => ∃ line, (Text.lines code)[place]? = some line ∧ NamedHead line)
    (by simp) (fun line member head => ?_) start reported
  rw [bareLines] at member
  have read := List.mem_zipIdx_iff_getElem?.mp member
  rw [List.getElem?_map, Option.map_eq_some_iff] at read
  obtain ⟨source, found, same⟩ := read
  exact ⟨source, found, namedHead_iff.mp (same ▸ head)⟩

end

theorem missingElse_lines {change : LogicChange} {code : String}
    (checked : change.codeToCheck? = some code) :
    (missingElse.logicIssues change).map (·.line) =
      (casesWithoutElse code).map (change.firstLine + ·) := by
  simp only [Rule.logicIssues, missingElse, checked, Option.getD_some, List.map_map]
  rfl

/-- In a code whose selections all have names as selectors, those without an `ELSE` of their own are
reported at their heads, and no others. In any code, a selection by anything else than a name is not
reported. -/
theorem casesWithoutElse_of_legible {outline : Outline branchLayout} {code : String}
    (laidOut : outline.LaysOut code) :
    (Legible outline → casesWithoutElse code = undefaulted 0 outline) ∧
    (Legible outline → ∀ change : LogicChange, change.codeToCheck? = some code →
      (missingElse.logicIssues change).map (·.line) =
        (undefaulted 0 outline).map (change.firstLine + ·)) ∧
    ∀ start ∈ casesWithoutElse code,
      ∃ line, (Text.lines code)[start]? = some line ∧ NamedHead line := by
  have listed (legible : Legible outline) : casesWithoutElse code = undefaulted 0 outline := by
    have scanned := @scan_outline outline 0 legible [] []
    rw [List.append_nil, List.modifyHead_nil, casesWithoutElseFrom, List.append_nil] at scanned
    rw [casesWithoutElse, bareLines_eq, laidOut]
    exact scanned
  refine ⟨listed, fun legible change checked => ?_, fun start => namedHead_of_mem⟩
  rw [missingElse_lines checked, listed legible]

instance (kind : BranchKind) (line : String) : Decidable (branchLayout.opens kind line) :=
  match kind with
  | .selection => inferInstanceAs (Decidable (Begins ..))
  | .conditional => inferInstanceAs (Decidable (Begins ..))

instance (kind : BranchKind) (line : String) : Decidable (branchLayout.closes kind line) :=
  match kind with
  | .selection => inferInstanceAs (Decidable (Begins ..))
  | .conditional => inferInstanceAs (Decidable (Begins ..))

instance (line : String) : Decidable (NamedHead line) :=
  decidable_of_iff _ namedHead_iff

instance (line : String) : Decidable (Unconditional line) :=
  decidable_of_iff (¬ ifPattern.isMatch (Text.upper (bareLine line)) = true ∧
      ¬ Text.contains (Text.upper (bareLine line)) "END_IF" = true)
    (and_congr (not_congr opens_iff) (not_congr closes_iff))

/-- A line that is a statement of its own. -/
def statementLine (text : String) (plain : ∀ word ∈ branchKeywords, ¬ Begins text word)
    (rest : Outline branchLayout) : Outline branchLayout :=
  .line .plain text plain rest

/-- A selection with an `ELSE` that belongs to a conditional in it. -/
def foreignDefault : Outline branchLayout :=
  .block .selection "case state of" (by decide)
    (.block .conditional "  IF ready THEN" (by decide)
      (statementLine "    1: x := 1;" (by decide)
        (.line .default "  ELSE" (show Begins _ _ by decide)
          (statementLine "    x := 2;" (by decide) .done)))
      "  END_IF" (by decide) .done)
    "END_CASE;" (by decide) .done

def foreignDefaultCode : String :=
  "case state of\n  IF ready THEN\n    1: x := 1;\n  ELSE\n    x := 2;\n  END_IF\nEND_CASE;"

theorem casesWithoutElse_of_legible_foreignDefault :
    foreignDefault.LaysOut foreignDefaultCode ∧ Legible foreignDefault ∧
      casesWithoutElse foreignDefaultCode = [0] := by
  have laidOut : foreignDefault.LaysOut foreignDefaultCode := by
    unfold Outline.LaysOut
    decide +kernel
  have body : Unconditional "    1: x := 1;" ∧ Unconditional "  ELSE" ∧
      Unconditional "    x := 2;" := by
    decide +kernel
  have legible : Legible foreignDefault := by
    refine ⟨by decide +kernel, ⟨mt closes_iff.mpr ?_, mt opens_iff.mpr ?_,
      ⟨body.1, body.2.1, body.2.2, trivial⟩, trivial⟩, trivial⟩
    · decide +kernel
    · decide +kernel
  exact ⟨laidOut, legible, (casesWithoutElse_of_legible laidOut).1 legible⟩

/-- A selection by the field of a structure, without a default branch. -/
def fieldSelection : Outline branchLayout :=
  .block .selection "CASE axis.state OF" (by decide)
    (statementLine "  0: x := 1;" (by decide) .done) "END_CASE" (by decide) .done

def fieldSelectionCode : String :=
  "CASE axis.state OF\n  0: x := 1;\nEND_CASE"

theorem fieldSelection_unreported :
    fieldSelection.LaysOut fieldSelectionCode ∧ undefaulted 0 fieldSelection = [0] ∧
      casesWithoutElse fieldSelectionCode = [] := by
  refine ⟨?_, rfl, ?_⟩
  · unfold Outline.LaysOut
    decide +kernel
  · decide +kernel

end PlcAudit.Review
