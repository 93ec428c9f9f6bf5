import Mathlib.Algebra.BigOperators.Group.List.Basic
import PlcAudit.Proofs.Review.KeywordCount
import PlcAudit.Proofs.Review.LabelCount

/-!
Comments and the complexity that is read off a code. Every line is freed of its comments on its own,
so of a comment that spans lines only the first line is hidden, and decisions are counted in the
other lines as in code.
-/

namespace PlcAudit.Review

open Code Pattern

/-! Comments in lines of their own -/

/-- A comment in lines of its own. No line of a block comment has the mark that ends it before its
end. -/
inductive CommentLines where
  | toLineEnd (indent content : String) (blank : Blank indent.toList)
  | block (indent first : String) (others : List String) (trail : String)
      (blank : Blank indent.toList ∧ Blank trail.toList)
      (open_ : ∀ piece ∈ first :: others, Text.contains piece "*)" = false)

/-- The lines of a block comment from one of them on. -/
def closedLines (trail : String) : String → List String → List String
  | line, [] => [line ++ "*)" ++ trail]
  | line, next :: rest => line :: closedLines trail next rest

namespace CommentLines

def lines : CommentLines → List String
  | toLineEnd indent content _ => [indent ++ "//" ++ content]
  | block indent first others trail _ _ => closedLines trail (indent ++ "(*" ++ first) others

/-- The lines of a comment below its first one. -/
def further (comment : CommentLines) : List String :=
  comment.lines.tail

end CommentLines

section

variable {indent piece rest : List Char}

theorem uncommentedFrom_blank (blank : Blank indent) :
    uncommentedFrom false (indent ++ rest) = indent ++ uncommentedFrom false rest := by
  induction indent with
  | nil => rfl
  | cons c others ih =>
    obtain ⟨here, later⟩ := List.forall_mem_cons.mp blank
    have noMark : c ≠ '/' ∧ c ≠ '(' := by
      constructor <;> rintro rfl <;> exact absurd here (by decide)
    rw [List.cons_append, uncommentedFrom, ih later]
    · rfl
    · exact fun _ first _ => noMark.1 first
    · exact fun _ first _ => noMark.2 first

theorem uncommentedFrom_step {c : Char} (open_ : ¬ (c = '*' ∧ rest.head? = some ')')) :
    uncommentedFrom true (c :: rest) = uncommentedFrom true rest := by
  rw [uncommentedFrom]
  rintro behind rfl rfl
  exact open_ ⟨rfl, rfl⟩

/-- What stands in a block comment is dropped up to the mark that ends it. -/
theorem uncommentedFrom_closed (open_ : ¬ ['*', ')'] <:+: piece) :
    uncommentedFrom true (piece ++ '*' :: ')' :: rest) = uncommentedFrom false rest := by
  induction piece with
  | nil => rw [List.nil_append, uncommentedFrom]
  | cons c others ih =>
    rw [List.cons_append, uncommentedFrom_step, ih fun inside => open_ (List.infix_cons inside)]
    rintro ⟨rfl, next⟩
    cases others with
    | nil => cases next
    | cons d others =>
      cases next
      exact open_ ⟨[], others, rfl⟩

theorem uncommentedFrom_open (open_ : ¬ ['*', ')'] <:+: piece) :
    uncommentedFrom true piece = [] := by
  induction piece with
  | nil => rw [uncommentedFrom]
  | cons c others ih =>
    rw [uncommentedFrom_step, ih fun inside => open_ (List.infix_cons inside)]
    rintro ⟨rfl, next⟩
    obtain ⟨others, rfl⟩ := List.head?_eq_some_iff.mp next
    exact open_ ⟨[], others, rfl⟩

end

/-- The first line of a comment is hidden. -/
theorem CommentLines.exists_head (comment : CommentLines) :
    ∃ head, comment.lines = head :: comment.further ∧ Blank (uncommented head).toList := by
  cases comment with
  | toLineEnd indent content blank =>
    refine ⟨_, rfl, ?_⟩
    have hidden : uncommentedFrom false ('/' :: '/' :: content.toList) = [] := by
      rw [uncommentedFrom]
    simpa [uncommented, uncommentedFrom_blank blank, hidden] using blank
  | block indent first others trail blank open_ =>
    have inside : ¬ ['*', ')'] <:+: first.toList := by
      rw [← Text.cutFirst?_isSome_iff]
      simpa [Text.contains] using open_ first List.mem_cons_self
    have begun (rest : List Char) :
        uncommentedFrom false ('(' :: '*' :: rest) = uncommentedFrom true rest := by
      rw [uncommentedFrom]
    cases others with
    | nil =>
      refine ⟨_, rfl, ?_⟩
      have trailing : uncommentedFrom false trail.toList = trail.toList := by
        have kept := @uncommentedFrom_blank _ [] blank.2
        rwa [List.append_nil, uncommentedFrom, List.append_nil] at kept
      simp [uncommented, uncommentedFrom_blank blank.1, begun, uncommentedFrom_closed inside,
        trailing, blank_append_iff, blank]
    | cons next rest =>
      refine ⟨_, rfl, ?_⟩
      simpa [uncommented, uncommentedFrom_blank blank.1, begun, uncommentedFrom_open inside]
        using blank.1

/-! Decisions line by line -/

/-- The number of decisions in lines, as they are counted. -/
def decisions (lines : List String) : Nat :=
  let bare := Text.joined "\n" (lines.map uncommented)
  ifPattern.count bare + elsifPattern.count bare + caseLabelPattern.count bare +
    loopPattern.count bare + connectivePattern.count bare

theorem textComplexity_eq (code : String) :
    textComplexity code = 1 + decisions (Text.lines code) := by
  rw [textComplexity, decisions, uncommentedLines]
  omega

theorem elsifPattern_eq : elsifPattern = (wordExpr .wordEdge "ELSIF").program :=
  compile_of_parse (by decide +kernel)

theorem loopPattern_eq : loopPattern = (wordsExpr .wordEdge ["FOR", "WHILE", "REPEAT"]).program :=
  compile_of_parse (by decide +kernel)

theorem connectivePattern_eq : connectivePattern = (wordsExpr .wordEdge ["AND", "OR"]).program :=
  compile_of_parse (by decide +kernel)

theorem findsElsif : FindsWords (wordExpr .wordEdge "ELSIF") ["ELSIF"] :=
  findsWords_wordExpr (by decide)

theorem findsLoops :
    FindsWords (wordsExpr .wordEdge ["FOR", "WHILE", "REPEAT"]) ["FOR", "WHILE", "REPEAT"] :=
  findsWords_wordsExpr (by decide) (by decide)

theorem findsConnectives : FindsWords (wordsExpr .wordEdge ["AND", "OR"]) ["AND", "OR"] :=
  findsWords_wordsExpr (by decide) (by decide)

/-- The number of keywords of decisions in a text. -/
def keywordsIn (text : String) : Nat :=
  ifPattern.count text + elsifPattern.count text + loopPattern.count text +
    connectivePattern.count text

theorem keywordsIn_joined (lines : List String) :
    keywordsIn (Text.joined "\n" lines) = (lines.map keywordsIn).sum := by
  have apart : (lines.map keywordsIn).sum = (lines.map ifPattern.count).sum +
      (lines.map elsifPattern.count).sum + (lines.map loopPattern.count).sum +
      (lines.map connectivePattern.count).sum := by
    rw [← List.sum_map_add, ← List.sum_map_add, ← List.sum_map_add]
    rfl
  rw [apart, keywordsIn, ifPattern_eq, elsifPattern_eq, loopPattern_eq, connectivePattern_eq,
    findsIf.count_joined, findsElsif.count_joined, findsLoops.count_joined,
    findsConnectives.count_joined]

theorem keywordsIn_blank {text : String} (blank : Blank text.toList) : keywordsIn text = 0 := by
  have wordless : ∀ c ∈ text.toList, Text.isWord c = false :=
    fun c member => not_isWord_of_isBlank (blank c member)
  simp only [keywordsIn, ifPattern_eq, elsifPattern_eq, loopPattern_eq, connectivePattern_eq,
    Program.count, findsIf.length_findAll_eq_zero wordless,
    findsElsif.length_findAll_eq_zero wordless, findsLoops.length_findAll_eq_zero wordless,
    findsConnectives.length_findAll_eq_zero wordless]

/-- Lines without comments, each behind a line feed. -/
def broken (lines : List String) : List Char :=
  lines.flatMap fun line => '\n' :: (uncommented line).toList

/-- The number of labels of selections in lines. -/
def labelsIn (lines : List String) : Nat :=
  (labelExpr.program.findAll (broken lines)).length

section

variable {line : String} {front back lines : List String}

theorem broken_append : broken (front ++ back) = broken front ++ broken back :=
  List.flatMap_append

theorem broken_cons :
    broken (line :: back) = '\n' :: ((uncommented line).toList ++ broken back) := rfl

theorem joined_toList :
    (Text.joined "\n" ((line :: back).map uncommented)).toList =
      (uncommented line).toList ++ broken back := by
  induction back generalizing line with
  | nil => simp [Text.joined, broken]
  | cons next rest ih =>
    rw [broken_cons, ← ih, Text.joined, List.map_cons,
      String.intercalate_cons_of_ne_nil (by simp)]
    simp [Text.joined]

theorem not_numberEnds_nil : ¬ NumberEnds [] := by
  rintro ⟨above, number, same, -, isNumber⟩
  obtain ⟨rfl, rfl⟩ := List.append_eq_nil_iff.mp same.symm
  exact isNumber.not_blank nofun

theorem length_labels_eq_zero {text : List Char} (uncoloned : ':' ∉ text) :
    (labelExpr.program.findAll text).length = 0 := by
  refine labelExpr_countable.length_findAll_eq_zero fun stop ends => ?_
  obtain ⟨front, below, rfl, -⟩ := labelExpr_endsAt_iff.mp ends
  exact uncoloned (by simp)

theorem length_labels_lineFeed (text : List Char) :
    (labelExpr.program.findAll ('\n' :: text)).length =
      (labelExpr.program.findAll text).length := by
  have cut := @length_labels_cut [] text (.inl not_numberEnds_nil)
  rwa [length_labels_eq_zero List.not_mem_nil, Nat.zero_add] at cut

theorem count_caseLabelPattern (lines : List String) :
    caseLabelPattern.count (Text.joined "\n" (lines.map uncommented)) = labelsIn lines := by
  rw [caseLabelPattern_eq, Program.count, labelsIn]
  cases lines with
  | nil => rfl
  | cons line rest => rw [joined_toList, broken_cons, length_labels_lineFeed]

theorem decisions_eq (lines : List String) :
    decisions lines =
      (lines.map fun line => keywordsIn (uncommented line)).sum + labelsIn lines := by
  have keywords := keywordsIn_joined (lines.map uncommented)
  rw [List.map_map, keywordsIn] at keywords
  rw [decisions, count_caseLabelPattern, ← Function.comp_def keywordsIn uncommented, ← keywords]
  omega

theorem labelsIn_append (unnumbered : ¬ NumberEnds (broken front)) :
    labelsIn (front ++ back) = labelsIn front + labelsIn back := by
  cases back with
  | nil =>
    rw [List.append_nil, Nat.left_eq_add, labelsIn]
    exact length_labels_eq_zero List.not_mem_nil
  | cons line rest =>
    rw [labelsIn, labelsIn, labelsIn, broken_append, broken_cons,
      length_labels_cut (.inl unnumbered), length_labels_lineFeed]

/-- A line of blanks does not count. -/
theorem labelsIn_blank (blank : Blank (uncommented line).toList) :
    labelsIn (front ++ line :: back) = labelsIn (front ++ back) := by
  rw [labelsIn, labelsIn, broken_append, broken_append, broken_cons]
  cases back with
  | nil =>
    rw [show broken [] = [] from rfl, List.append_nil, List.append_nil,
      length_labels_cut (.inr blank.no_colon), length_labels_eq_zero blank.no_colon, Nat.add_zero]
  | cons next rest => rw [broken_cons, length_labels_blank blank]

theorem decisions_append (unnumbered : ¬ NumberEnds (broken front)) :
    decisions (front ++ back) = decisions front + decisions back := by
  rw [decisions_eq, decisions_eq, decisions_eq, labelsIn_append unnumbered, List.map_append,
    List.sum_append]
  omega

theorem decisions_blank (blank : Blank (uncommented line).toList) :
    decisions (front ++ line :: back) = decisions (front ++ back) := by
  rw [decisions_eq, decisions_eq, labelsIn_blank blank, List.map_append, List.map_append,
    List.map_cons, List.sum_append, List.sum_append, List.sum_cons, keywordsIn_blank blank,
    Nat.zero_add]

end

/-! Numbers at the ends of lines -/

/-- Without comments, the last line that is not blank is a number. A colon that starts a line below
would make it a label. -/
def EndsInNumber (lines : List String) : Prop :=
  ∃ front line rest, lines = front ++ line :: rest ∧ IsNumber (uncommented line).toList ∧
    ∀ other ∈ rest, Blank (uncommented other).toList

theorem uncommentedFrom_sublist (inside : Bool) (text : List Char) :
    (uncommentedFrom inside text).Sublist text := by
  fun_induction uncommentedFrom inside text with
  | case1 => exact .slnil
  | case2 rest ih => exact (ih.cons _).cons _
  | case3 c rest open_ ih => exact ih.cons _
  | case4 rest => exact List.nil_sublist _
  | case5 rest ih => exact (ih.cons _).cons _
  | case6 c rest plain begun ih => exact ih.cons_cons _

theorem lineFeed_not_mem_linesFrom {current text : List Char} (begun : '\n' ∉ current) :
    ∀ line ∈ Text.linesFrom current text, '\n' ∉ line.toList := by
  fun_induction Text.linesFrom current text with
  | case1 current => exact nofun
  | case2 current started => simpa using begun
  | case3 current rest ih =>
    have kept : (Text.dropReturn current).Sublist current := by
      fun_cases Text.dropReturn current with
      | case1 rest => exact List.sublist_cons_self _ _
      | case2 => exact .refl _
    refine List.forall_mem_cons.mpr ⟨?_, ih List.not_mem_nil⟩
    simpa using fun member => begun (kept.subset member)
  | case4 current c rest other ih =>
    refine ih fun member => ?_
    rcases List.mem_cons.mp member with rfl | earlier
    · exact other rfl
    · exact begun earlier

theorem endsInNumber_of_numberEnds {lines : List String}
    (whole : ∀ line ∈ lines, '\n' ∉ line.toList) (ends : NumberEnds (broken lines)) :
    EndsInNumber lines := by
  induction lines using List.reverseRecOn with
  | nil => exact absurd ends not_numberEnds_nil
  | append_singleton front line ih =>
    have last : broken (front ++ [line]) = broken front ++ '\n' :: (uncommented line).toList := by
      rw [broken_append, broken_cons]
      simp [broken]
    rw [last] at ends
    rcases numberEnds_cut.mp ends with ⟨above, number, same, lineStart, isNumber⟩ | ⟨blank, above⟩
    · have started : above = [] := by
        rcases List.eq_nil_or_concat above with none | ⟨before, c, rfl⟩
        · exact none
        · rw [List.concat_eq_append] at same lineStart
          rw [List.getLast?_concat, Option.all_some, beq_iff_eq] at lineStart
          have inside : '\n' ∈ (uncommented line).toList := by simp [same, lineStart]
          rw [uncommented, String.toList_ofList] at inside
          exact absurd ((uncommentedFrom_sublist false _).subset inside)
            (whole line List.mem_concat_self)
      rw [started, List.nil_append] at same
      exact ⟨front, line, [], rfl, same ▸ isNumber, nofun⟩
    · obtain ⟨before, numbered, rest, rfl, isNumber, blanks⟩ :=
        ih (fun other member => whole other (List.mem_append_left _ member)) above
      refine ⟨before, numbered, rest ++ [line], by simp, isNumber, ?_⟩
      intro other member
      rcases List.mem_append.mp member with earlier | here
      · exact blanks other earlier
      · rwa [List.mem_singleton.mp here]

/-- A comment adds to the complexity what its lines below the first one would add as code. So a
comment in one line adds nothing. One that spans lines adds the decisions that are counted in them,
where no number at the end of a line waits for its colon. -/
theorem textComplexity_with_comment {code changed : String} {above below : List String}
    (comment : CommentLines) (original : Text.lines code = above ++ below)
    (inserted : Text.lines changed = above ++ (comment.lines ++ below)) :
    (∀ exposed, Text.lines exposed = above ++ (comment.further ++ below) →
      textComplexity changed = textComplexity exposed) ∧
    (comment.further = [] → textComplexity changed = textComplexity code) ∧
    (¬ EndsInNumber above → ¬ EndsInNumber comment.further →
      textComplexity changed = textComplexity code + decisions comment.further) := by
  obtain ⟨head, lines, blank⟩ := comment.exists_head
  have hidden : textComplexity changed =
      1 + decisions (above ++ (comment.further ++ below)) := by
    rw [textComplexity_eq, inserted, lines, List.cons_append, decisions_blank blank]
  have whole (text : String) : ∀ line ∈ Text.lines text, '\n' ∉ line.toList :=
    lineFeed_not_mem_linesFrom List.not_mem_nil
  refine ⟨fun exposed same => ?_, fun alone => ?_, fun unnumbered closed => ?_⟩
  · rw [hidden, textComplexity_eq, same]
  · rw [hidden, textComplexity_eq, original, alone, List.nil_append]
  · have first : ¬ NumberEnds (broken above) := by
      refine mt (endsInNumber_of_numberEnds fun line member => ?_) unnumbered
      exact whole code line (by simp [original, member])
    have second : ¬ NumberEnds (broken comment.further) := by
      refine mt (endsInNumber_of_numberEnds fun line member => ?_) closed
      exact whole changed line (by simp [inserted, lines, member])
    rw [hidden, textComplexity_eq, original, decisions_append first, decisions_append second,
      decisions_append first]
    omega

/-- Where every line has something besides blanks and digits, none is a number. -/
theorem not_endsInNumber {lines : List String}
    (worded : ∀ line ∈ lines,
      (uncommented line).toList.all (fun c => Text.isBlank c || Text.isDecimal c) = false) :
    ¬ EndsInNumber lines := by
  rintro ⟨front, line, rest, rfl, isNumber, -⟩
  have only := List.all_eq_true.mpr fun c member =>
    Bool.or_eq_true_iff.mpr (isNumber.only c member)
  rw [worded line (by simp)] at only
  cases only

/-- A comment over two lines. -/
def spreadComment : CommentLines :=
  .block "  " " switch on" ["when ready "] "" ⟨by decide, by decide⟩ (by decide)

theorem textComplexity_with_comment_spread :
    spreadComment.lines = ["  (* switch on", "when ready *)"] ∧
      textComplexity "x := 1;\n  (* switch on\nwhen ready *)\ny := 2;" =
        textComplexity "x := 1;\ny := 2;" + decisions spreadComment.further := by
  have added := (@textComplexity_with_comment "x := 1;\ny := 2;"
    "x := 1;\n  (* switch on\nwhen ready *)\ny := 2;" ["x := 1;"] ["y := 2;"] spreadComment
    (by decide +kernel) (by decide +kernel)).2.2
  refine ⟨by decide, added (not_endsInNumber ?_) (not_endsInNumber ?_)⟩
  · decide +kernel
  · decide +kernel

/-- A comment over two lines, with a keyword in the second. -/
def conditionComment : CommentLines :=
  .block "" " switch on" ["if needed "] "" ⟨by decide, by decide⟩ (by decide)

/-- A keyword in a comment is counted as a decision. -/
theorem conditionComment_counted :
    Text.lines "x := 1;\n(* switch on\nif needed *)\ny := 2;" =
        ["x := 1;"] ++ (conditionComment.lines ++ ["y := 2;"]) ∧
      Text.lines "x := 1;\ny := 2;" = ["x := 1;"] ++ ["y := 2;"] ∧
      textComplexity "x := 1;\n(* switch on\nif needed *)\ny := 2;" = 2 ∧
      textComplexity "x := 1;\ny := 2;" = 1 := by
  refine ⟨?_, ?_, ?_, ?_⟩
  all_goals decide +kernel

end PlcAudit.Review
