import PlcAudit.Proofs.Text.Character
import PlcAudit.Proofs.Text.Pattern.Layout
import PlcAudit.Review.Suppression

/-!
Markers in comments. The rules of a marker are the words between commas and blanks of its list, in
any letter case. The marker of a line is that of the leftmost place where a marker comment stands;
what stands behind a start comment on its line is not looked at.
-/

namespace PlcAudit.Review

/-! Lists of rules -/

/-- What stands between the names in a list of rules. -/
def isSeparator (c : Char) : Bool := c == ',' || Text.isBlank c

/-- The names in a list of rules. -/
def listedNames (list : String) : List String :=
  ((list.toList.splitOnP isSeparator).filter (!·.isEmpty)).map String.ofList

/-- The words of a text are its nonempty pieces between blanks. -/
theorem wordsFrom_eq (current text : List Char) :
    Text.wordsFrom current text =
      ((text.splitOnPPrepend Text.isBlank current).filter (!·.isEmpty)).map String.ofList := by
  induction text generalizing current with
  | nil =>
    rw [Text.wordsFrom, List.splitOnPPrepend_nil]
    cases current <;> simp
  | cons c rest ih =>
    rw [Text.wordsFrom, List.splitOnPPrepend_cons_eq_if]
    split
    · rw [← List.splitOnPPrepend_nil_right, List.filter_cons, ih]
      cases current <;> simp
    · exact ih (c :: current)

/-- Commas count as blanks. -/
theorem splitOnPPrepend_blanked (current list : List Char) :
    (list.map fun c => if c == ',' then ' ' else c).splitOnPPrepend Text.isBlank current =
      list.splitOnPPrepend isSeparator current := by
  induction list generalizing current with
  | nil => rfl
  | cons c rest ih =>
    rw [List.map_cons, List.splitOnPPrepend_cons_eq_if, List.splitOnPPrepend_cons_eq_if,
      ← List.splitOnPPrepend_nil_right, ← List.splitOnPPrepend_nil_right, ih, ih]
    by_cases comma : c = ','
    · subst c
      rfl
    · simp [isSeparator, comma]

theorem words_blanked (list : String) :
    Text.words (String.ofList (list.toList.map fun c => if c == ',' then ' ' else c)) =
      listedNames list := by
  rw [Text.words, String.toList_ofList, wordsFrom_eq, splitOnPPrepend_blanked]
  rfl

namespace RuleSet

theorem ofText_some (list : String) :
    ofText (some list) =
      { all := ((listedNames list).map Text.upper).contains "ALL"
        ids := ((listedNames list).map Text.upper).filter (· != "ALL") } := by
  rw [← words_blanked]
  rfl

/-- A marker covers a rule that its list names in any letter case; the word `all`, and a missing
list, cover every rule. -/
theorem covers_ofText (list : Option String) (ruleId : String) :
    (ofText list).covers ruleId = true ↔
      ∀ text, list = some text → ∃ name ∈ listedNames text,
        Text.sameName name "all" = true ∨ Text.sameName name ruleId = true := by
  cases list with
  | none =>
    have all : (ofText none).all = true := by decide
    simp [covers, all]
  | some text =>
    have every : Text.upper "all" = "ALL" := by decide
    simp only [ofText_some, covers, Text.sameName, Option.some.injEq, forall_eq', Bool.or_eq_true,
      List.contains_iff_mem, List.mem_filter, List.mem_map, bne_iff_ne, beq_iff_eq, every]
    constructor
    · rintro (⟨name, listed, same⟩ | ⟨⟨name, listed, same⟩, _⟩)
      · exact ⟨name, listed, .inl same⟩
      · exact ⟨name, listed, .inr same⟩
    · rintro ⟨name, listed, same | same⟩
      · exact .inl ⟨name, listed, same⟩
      · by_cases all : Text.upper name = "ALL"
        · exact .inl ⟨name, listed, all⟩
        · exact .inr ⟨⟨name, listed, same⟩, same ▸ all⟩

end RuleSet

theorem splitOnP_separators {text : List Char} (apart : ∀ c ∈ text, isSeparator c = true) :
    (text.splitOnP isSeparator).filter (!·.isEmpty) = [] := by
  induction text with
  | nil => rfl
  | cons c rest ih =>
    obtain ⟨here, later⟩ := List.forall_mem_cons.mp apart
    rw [List.splitOnP_cons_eq_if_modifyHead, if_pos here]
    exact ih later

/-- Separators around a list change nothing. -/
theorem splitOnP_surrounded {before list after : List Char}
    (front : ∀ c ∈ before, isSeparator c = true) (back : ∀ c ∈ after, isSeparator c = true) :
    ((before ++ list ++ after).splitOnP isSeparator).filter (!·.isEmpty) =
      (list.splitOnP isSeparator).filter (!·.isEmpty) := by
  have trailing : ((before ++ list ++ after).splitOnP isSeparator).filter (!·.isEmpty) =
      ((before ++ list).splitOnP isSeparator).filter (!·.isEmpty) := by
    cases after with
    | nil => rw [List.append_nil]
    | cons c rest =>
      obtain ⟨here, later⟩ := List.forall_mem_cons.mp back
      rw [List.splitOnP_append_cons _ _ here, List.filter_append, splitOnP_separators later,
        List.append_nil]
  rw [trailing]
  rcases List.eq_nil_or_concat before with rfl | ⟨rest, c, rfl⟩
  · rfl
  · rw [List.concat_eq_append] at front ⊢
    rw [List.forall_mem_append] at front
    rw [List.append_assoc, List.singleton_append,
      List.splitOnP_append_cons _ _ (front.2 c (List.mem_singleton_self c)), List.filter_append,
      splitOnP_separators front.1, List.nil_append]

theorem listedNames_surrounded {before list after : List Char}
    (front : ∀ c ∈ before, isSeparator c = true) (back : ∀ c ∈ after, isSeparator c = true) :
    listedNames (String.ofList (before ++ list ++ after)) = listedNames (String.ofList list) := by
  simp only [listedNames, String.toList_ofList, splitOnP_surrounded front back]

/-! The pattern of a marker comment -/

open Pattern

/-- The characters that a list of rules is written with. -/
def listedChars : CharSet :=
  { items :=
      [.range 'A' 'Z', .range 'a' 'z', .range '0' '9', .range '_' '_', .range ',' ',', .blank]
    anyCase := true }

def blankChars : CharSet := { items := [.blank], anyCase := true }

/-- A character in any letter case. -/
def letter (c : Char) : CharSet := { items := [.range c c], anyCase := true }

/-- A word in any letter case, and then the rest. -/
def literally (word : String) (rest : Expr) : Expr :=
  word.toList.foldr (fun c rest => .sequence (.one (letter c)) rest) rest

def blanks : Expr := .repeated true (.one blankChars)

def kindPart : Expr :=
  .either
    (.group 1 (.either (literally "-start" .empty)
      (.either (literally "-end" .empty) (literally "-file" .empty))))
    .empty

def listPart : Expr :=
  .either
    (literally ":" (.sequence blanks (.sequence
      (.group 2 (.sequence (.sequence (.one listedChars) (.repeated false (.one listedChars)))
        .empty))
      .empty)))
    .empty

def closingPart : Expr :=
  .either (literally "*)" .empty) (.sequence (.anchor .textEnd) .empty)

/-- The pattern of a marker comment, part by part. -/
def markerExpr : Expr :=
  .sequence (.either (literally "//" .empty) (literally "(*" .empty))
    (.sequence blanks (literally "qa-ignore"
      (.sequence kindPart (.sequence blanks (.sequence listPart (.sequence blanks
        (.sequence closingPart .empty)))))))

theorem markerPattern_eq : markerPattern = markerExpr.program :=
  compile_of_parse (by decide +kernel)

/-! Characters in any letter case -/

/-- Letters are the only characters with variants besides themselves. -/
theorem eq_of_mem_caseVariants {c variant : Char} (member : variant ∈ caseVariants c)
    (letterless : variant.isAlpha = false) (special : variant ∉ ['\u212A', '\u017F']) :
    variant = c := by
  by_contra different
  have lettered : variant.isAlpha = true ∨ variant ∈ ['\u212A', '\u017F'] := by
    unfold caseVariants at member
    split_ifs at member with kelvin long lower upper
    · simp only [List.mem_cons, List.not_mem_nil, or_false] at member
      rcases member with rfl | rfl | rfl <;> decide
    · simp only [List.mem_cons, List.not_mem_nil, or_false] at member
      rcases member with rfl | rfl | rfl <;> decide
    · simp only [List.mem_cons, List.not_mem_nil, or_false, different, false_or] at member
      exact .inl (member ▸ isAlpha_toUpper lower)
    · simp only [List.mem_cons, List.not_mem_nil, or_false, different, false_or] at member
      exact .inl (member ▸ isAlpha_toLower upper)
    · exact absurd (List.mem_singleton.mp member) different
  rcases lettered with alpha | unusual
  · simp [letterless] at alpha
  · exact special unusual

theorem isBlank_of_blankChars {c : Char} (inside : blankChars.contains c = true) :
    Text.isBlank c = true := by
  simp only [blankChars, CharSet.contains, if_true, Item.holds, List.any_cons, List.any_nil,
    Bool.or_false, bne_iff_ne, ne_eq, Bool.not_eq_false, List.any_eq_true] at inside
  obtain ⟨variant, member, blank⟩ := inside
  have code : ∃ range ∈ Text.blankRanges, range.1 ≤ variant.toNat ∧ variant.toNat ≤ range.2 := by
    simpa [Text.isBlank, Text.inRanges] using blank
  simp only [Text.blankRanges, List.mem_cons, List.not_mem_nil, or_false, exists_eq_or_imp,
    exists_eq_left] at code
  have letterless : variant.isAlpha = false := by
    rw [Bool.eq_false_iff, ne_eq, isAlpha_iff]
    omega
  have special : variant ∉ ['\u212A', '\u017F'] := by
    intro unusual
    simp only [List.mem_cons, List.not_mem_nil, or_false] at unusual
    rcases unusual with rfl | rfl
    · exact absurd blank (by decide)
    · exact absurd blank (by decide)
  exact eq_of_mem_caseVariants member letterless special ▸ blank

theorem mem_caseVariants_self (c : Char) : c ∈ caseVariants c := by
  unfold caseVariants
  split_ifs with kelvin long lower upper
  · simpa [or_assoc] using kelvin
  · simpa [or_assoc] using long
  · exact List.mem_cons_self
  · exact List.mem_cons_self
  · exact List.mem_singleton_self c

theorem letter_self (c : Char) : (letter c).contains c = true := by
  simp only [letter, CharSet.contains, if_true, Item.holds, List.any_cons, List.any_nil,
    Bool.or_false, bne_iff_ne, ne_eq, Bool.not_eq_false, List.any_eq_true]
  exact ⟨c, mem_caseVariants_self c, by simp⟩

/-- What is no letter has no other letter case. -/
theorem eq_of_letter_symbol {c d : Char} (letterless : c.isAlpha = false)
    (special : c ∉ ['\u212A', '\u017F']) (same : (letter c).contains d = true) : d = c := by
  simp only [letter, CharSet.contains, if_true, Item.holds, List.any_cons, List.any_nil,
    Bool.or_false, bne_iff_ne, ne_eq, Bool.not_eq_false, List.any_eq_true, Bool.and_eq_true,
    decide_eq_true_eq] at same
  obtain ⟨variant, member, first, last⟩ := same
  obtain rfl : variant = c := Char.le_antisymm last first
  exact (eq_of_mem_caseVariants member letterless special).symm

/-! Parts of the pattern and the places they match -/

/-- The text has a word at a place, in any letter case. -/
def Reads (text : List Char) (word : String) (start : Nat) : Prop :=
  ∀ index c, word.toList[index]? = some c →
    ∃ d, text[start + index]? = some d ∧ (letter c).contains d = true

section

variable {text : List Char} {start stop : Nat} {notes after : Notes}

theorem matches_literally_iff {word : String} {rest : Expr} :
    (literally word rest).Matches text start notes stop after ↔
      Reads text word start ∧ rest.Matches text (start + word.length) notes stop after := by
  simp only [literally, Reads, ← String.length_toList]
  induction word.toList generalizing start with
  | nil => simp
  | cons c others ih =>
    rw [List.foldr_cons, Expr.matches_sequence_iff]
    constructor
    · rintro ⟨middle, between, head, tail⟩
      obtain ⟨here, rfl, rfl⟩ := Expr.matches_one_iff.mp head
      obtain ⟨later, matched⟩ := ih.mp tail
      refine ⟨fun index d found => ?_, ?_⟩
      · cases index with
        | zero =>
          rw [List.getElem?_cons_zero, Option.some.injEq] at found
          exact found ▸ here
        | succ index =>
          rw [List.getElem?_cons_succ] at found
          rw [show start + (index + 1) = start + 1 + index by omega]
          exact later index d found
      · rwa [List.length_cons,
          show start + (others.length + 1) = start + 1 + others.length by omega]
    · rintro ⟨read, matched⟩
      refine ⟨start + 1, notes, Expr.matches_one_iff.mpr ⟨read 0 c rfl, rfl, rfl⟩, ih.mpr ⟨?_, ?_⟩⟩
      · intro index d found
        rw [show start + 1 + index = start + (index + 1) by omega]
        exact read (index + 1) d found
      · rwa [List.length_cons,
          show start + (others.length + 1) = start + 1 + others.length by omega] at matched

theorem matches_word_iff {word : String} :
    (literally word .empty).Matches text start notes stop after ↔
      Reads text word start ∧ stop = start + word.length ∧ after = notes := by
  rw [matches_literally_iff, Expr.matches_empty_iff]

theorem matches_blanks_iff :
    blanks.Matches text start notes stop after ↔
      blankChars.Spans text start stop ∧ after = notes :=
  Expr.matches_run_iff

theorem Reads.of_drop {word : String} {rest : List Char}
    (here : text.drop start = word.toList ++ rest) : Reads text word start := by
  intro index c found
  refine ⟨c, ?_, letter_self c⟩
  rw [← List.getElem?_drop, here,
    List.getElem?_append_left (List.getElem?_eq_some_iff.mp found).1, found]

/-- A word does not stand where one of its letters is missing. -/
theorem Reads.contains {word : String} (reads : Reads text word start) (index : Nat) {c d : Char}
    (found : word.toList[index]? = some c) (read : text[start + index]? = some d) :
    (letter c).contains d = true := by
  obtain ⟨other, same, inside⟩ := reads index c found
  rw [read, Option.some.injEq] at same
  exact same ▸ inside

theorem spans_of_drop {set : CharSet} (piece : List Char) {rest : List Char}
    (here : text.drop start = piece ++ rest) (inside : ∀ c ∈ piece, set.contains c = true) :
    set.Spans text start (start + piece.length) := by
  refine ⟨Nat.le_add_right .., fun place behind before => ?_⟩
  obtain ⟨index, rfl⟩ := Nat.exists_eq_add_of_le behind
  have within : index < piece.length := by omega
  refine ⟨piece[index], ?_, inside _ (List.getElem_mem within)⟩
  rw [← List.getElem?_drop, here, List.getElem?_append_left within, List.getElem?_eq_getElem within]

theorem mem_of_spans {set : CharSet} (spans : set.Spans text start stop) :
    ∀ c ∈ (text.drop start).take (stop - start), set.contains c = true := by
  intro c member
  obtain ⟨index, found⟩ := List.getElem?_of_mem member
  have within : index < stop - start := by
    have bound := (List.getElem?_eq_some_iff.mp found).1
    rw [List.length_take] at bound
    omega
  rw [List.getElem?_take_of_lt within, List.getElem?_drop] at found
  obtain ⟨d, read, inside⟩ := spans.2 (start + index) (by omega) (by omega)
  rw [found, Option.some.injEq] at read
  exact read ▸ inside

/-- A run of characters ends before a character that is not one of them. -/
theorem stop_le_of_spans {set : CharSet} {place : Nat} {c : Char}
    (spans : set.Spans text start stop) (behind : start ≤ place) (read : text[place]? = some c)
    (outside : set.contains c = false) : stop ≤ place := by
  by_contra beyond
  obtain ⟨other, same, inside⟩ := spans.2 place behind (by omega)
  rw [read, Option.some.injEq] at same
  rw [← same, outside] at inside
  cases inside

end

/-! A start comment -/

def startOpening : List Char :=
  ['(', '*', ' ', 'q', 'a', '-', 'i', 'g', 'n', 'o', 'r', 'e', '-', 's', 't', 'a', 'r', 't', ':']

def commentEnd : List Char := ['*', ')']

/-- A comment that opens a region, with its list of rules. -/
def startComment (list : List Char) : List Char :=
  startOpening ++ (list ++ commentEnd)

section

variable {text : List Char} {place : Nat} {list rest : List Char}

/-- What follows a place inside a start comment. -/
theorem drop_startComment (here : text.drop place = startComment list ++ rest) (index : Nat) :
    text.drop (place + index) = (startOpening ++ (list ++ (commentEnd ++ rest))).drop index := by
  rw [← List.drop_drop, here, startComment, List.append_assoc, List.append_assoc]

theorem getElem?_startComment (here : text.drop place = startComment list ++ rest) (index : Nat)
    {c : Char} (found : startOpening[index]? = some c) : text[place + index]? = some c := by
  rw [← List.getElem?_drop, here, startComment, List.append_assoc,
    List.getElem?_append_left (List.getElem?_eq_some_iff.mp found).1, found]

theorem drop_list (here : text.drop place = startComment list ++ rest) :
    text.drop (place + 19) = list ++ (commentEnd ++ rest) :=
  drop_startComment here 19

theorem drop_closing (here : text.drop place = startComment list ++ rest) :
    text.drop (place + 19 + list.length) = commentEnd ++ rest := by
  rw [← List.drop_drop, drop_list here, List.drop_left]

/-- The list of a start comment may all be taken for its rules. -/
theorem matches_listPart (here : text.drop place = startComment list ++ rest) (nonempty : list ≠ [])
    (listed : ∀ c ∈ list, listedChars.contains c = true) (notes : Notes) :
    ∃ after, listPart.Matches text (place + 18) notes (place + 19 + list.length) after := by
  obtain ⟨c, others, rfl⟩ := List.exists_cons_of_ne_nil nonempty
  have colon : Reads text ":" (place + 18) := .of_drop (drop_startComment here 18)
  obtain ⟨ordered, names⟩ := spans_of_drop _ (drop_list here) listed
  rw [List.length_cons] at ordered names ⊢
  obtain ⟨d, read, inside⟩ := names (place + 19) (Nat.le_refl _) (by omega)
  have others : listedChars.Spans text (place + 19 + 1) (place + 19 + (others.length + 1)) :=
    ⟨by omega, fun index behind before => names index (by omega) before⟩
  have none : blankChars.Spans text (place + 19) (place + 19) :=
    ⟨Nat.le_refl _, fun index _ _ => by omega⟩
  exact ⟨_, .preferred (matches_literally_iff.mpr ⟨colon, .sequence
    (matches_blanks_iff.mpr ⟨none, rfl⟩) (.sequence
      (.group (.sequence (.sequence (.one read inside) (Expr.matches_run_iff.mpr ⟨others, rfl⟩))
        .empty))
      .empty)⟩)⟩

/-- Where a start comment stands, the pattern matches. -/
theorem matchesAt_startComment (here : text.drop place = startComment list ++ rest)
    (nonempty : list ≠ []) (listed : ∀ c ∈ list, listedChars.contains c = true) :
    markerExpr.MatchesAt text place := by
  have opening : Reads text "(*" place := .of_drop (drop_startComment here 0)
  have gap : blankChars.Spans text (place + 2) (place + 3) :=
    spans_of_drop [' '] (drop_startComment here 2) (List.forall_mem_singleton.mpr (by decide))
  have word : Reads text "qa-ignore" (place + 3) := .of_drop (drop_startComment here 3)
  have kind : Reads text "-start" (place + 12) := .of_drop (drop_startComment here 12)
  have closing : Reads text "*)" (place + 19 + list.length) := .of_drop (drop_closing here)
  have none : ∀ index, blankChars.Spans text index index := fun index =>
    ⟨Nat.le_refl _, fun place _ _ => by omega⟩
  obtain ⟨_, names⟩ := matches_listPart here nonempty listed _
  exact ⟨_, _, .group (.sequence
    (.other (matches_word_iff.mpr ⟨opening, rfl, rfl⟩)) (.sequence
    (matches_blanks_iff.mpr ⟨gap, rfl⟩) (matches_literally_iff.mpr ⟨word, .sequence
      (.preferred (.group (.preferred (matches_word_iff.mpr ⟨kind, rfl, rfl⟩)))) (.sequence
      (matches_blanks_iff.mpr ⟨none _, rfl⟩) (.sequence names (.sequence
      (matches_blanks_iff.mpr ⟨none _, rfl⟩) (.sequence
      (.preferred (matches_word_iff.mpr ⟨closing, rfl, rfl⟩)) .empty))))⟩)))⟩

/-- Behind its list, a marker goes on with a blank or an asterisk, or the text ends. -/
theorem matches_ending {start stop : Nat} {notes after : Notes} {c : Char}
    (matched : (Expr.sequence blanks (.sequence closingPart .empty)).Matches text start notes stop
      after) (read : text[start]? = some c) :
    blankChars.contains c = true ∨ (letter '*').contains c = true := by
  obtain ⟨middle, between, gap, closing⟩ := Expr.matches_sequence_iff.mp matched
  obtain ⟨⟨ordered, spans⟩, rfl⟩ := matches_blanks_iff.mp gap
  rcases Nat.eq_or_lt_of_le ordered with rfl | longer
  · right
    obtain ⟨_, _, closed, _⟩ := Expr.matches_sequence_iff.mp closing
    rcases Expr.matches_either_iff.mp closed with written | ended
    · exact (matches_word_iff.mp written).1.contains 0 rfl read
    · obtain ⟨_, _, anchored, _⟩ := Expr.matches_sequence_iff.mp ended
      have holds := (Expr.matches_anchor_iff.mp anchored).1
      simp [read, Anchor.holds] at holds
  · obtain ⟨d, found, inside⟩ := spans start (Nat.le_refl _) longer
    rw [read, Option.some.injEq] at found
    exact .inl (found ▸ inside)

theorem opening_startComment (here : text.drop place = startComment list ++ rest) {stop : Nat}
    {notes after : Notes}
    (matched : (Expr.either (literally "//" .empty) (literally "(*" .empty)).Matches text place
      notes stop after) : stop = place + 2 ∧ after = notes := by
  rcases Expr.matches_either_iff.mp matched with slashes | bracket
  · have wrong := (matches_word_iff.mp slashes).1.contains 0 rfl
      (getElem?_startComment here 0 rfl)
    exact absurd wrong (by decide)
  · exact (matches_word_iff.mp bracket).2

theorem gap_startComment (here : text.drop place = startComment list ++ rest) {middle : Nat}
    (gap : blankChars.Spans text (place + 2) middle) (word : Reads text "qa-ignore" middle) :
    middle = place + 3 := by
  have bound : middle ≤ place + 3 :=
    stop_le_of_spans gap (by omega) (getElem?_startComment here 3 rfl) (by decide)
  have moved : middle ≠ place + 2 := by
    rintro rfl
    have wrong := word.contains 0 rfl (getElem?_startComment here 2 rfl)
    exact absurd wrong (by decide)
  have := gap.1
  omega

/-- The kind of a start comment can only be read as such. -/
theorem kind_startComment (here : text.drop place = startComment list ++ rest) {stop last : Nat}
    {notes between after : Notes}
    (kind : kindPart.Matches text (place + 12) notes stop between)
    (others : (Expr.sequence blanks (.sequence listPart (.sequence blanks
      (.sequence closingPart .empty)))).Matches text stop between last after) :
    stop = place + 18 ∧ between = (notes.mark 2 (place + 12)).mark 3 (place + 18) := by
  have dash := getElem?_startComment here 12 rfl
  rcases Expr.matches_either_iff.mp kind with grouped | plain
  · obtain ⟨inner, words, rfl⟩ := Expr.matches_group_iff.mp grouped
    rcases Expr.matches_either_iff.mp words with started | unlike
    · obtain ⟨_, rfl, rfl⟩ := matches_word_iff.mp started
      exact ⟨rfl, rfl⟩
    · exfalso
      have letterS := getElem?_startComment here 13 rfl
      rcases Expr.matches_either_iff.mp unlike with ended | filed
      · exact absurd ((matches_word_iff.mp ended).1.contains 1 rfl letterS) (by decide)
      · exact absurd ((matches_word_iff.mp filed).1.contains 1 rfl letterS) (by decide)
  · exfalso
    obtain ⟨rfl, rfl⟩ := Expr.matches_empty_iff.mp plain
    obtain ⟨middle, _, gap, later⟩ := Expr.matches_sequence_iff.mp others
    obtain ⟨spans, rfl⟩ := matches_blanks_iff.mp gap
    obtain rfl : middle = place + 12 :=
      Nat.le_antisymm (stop_le_of_spans spans (Nat.le_refl _) dash (by decide)) spans.1
    obtain ⟨_, _, names, ending⟩ := Expr.matches_sequence_iff.mp later
    rcases Expr.matches_either_iff.mp names with written | missing
    · exact absurd ((matches_literally_iff.mp written).1.contains 0 rfl dash) (by decide)
    · obtain ⟨rfl, rfl⟩ := Expr.matches_empty_iff.mp missing
      exact absurd (matches_ending ending dash) (by decide)

/-- Nothing but an asterisk closes a list. -/
theorem closing_startComment (here : text.drop place = startComment list ++ rest)
    (listed : ∀ c ∈ list, listedChars.contains c = true) {start stop : Nat} {notes after : Notes}
    (behind : place + 19 ≤ start) (bound : start ≤ place + 19 + list.length)
    (matched : (Expr.sequence closingPart .empty).Matches text start notes stop after) :
    start = place + 19 + list.length ∧ after = notes := by
  obtain ⟨_, _, closed, beyond⟩ := Expr.matches_sequence_iff.mp matched
  obtain ⟨rfl, rfl⟩ := Expr.matches_empty_iff.mp beyond
  rcases Nat.eq_or_lt_of_le bound with same | inside
  · refine ⟨same, ?_⟩
    rcases Expr.matches_either_iff.mp closed with written | ended
    · exact (matches_word_iff.mp written).2.2
    · obtain ⟨_, _, anchored, finished⟩ := Expr.matches_sequence_iff.mp ended
      obtain ⟨_, rfl⟩ := Expr.matches_empty_iff.mp finished
      exact (Expr.matches_anchor_iff.mp anchored).2.2
  · exfalso
    obtain ⟨c, read, member⟩ := (spans_of_drop _ (drop_list here) listed).2 start behind inside
    rcases Expr.matches_either_iff.mp closed with written | ended
    · obtain rfl := eq_of_letter_symbol (by decide) (by decide)
        ((matches_word_iff.mp written).1.contains 0 rfl read)
      exact absurd member (by decide)
    · obtain ⟨_, _, anchored, _⟩ := Expr.matches_sequence_iff.mp ended
      have holds := (Expr.matches_anchor_iff.mp anchored).1
      simp [read, Anchor.holds] at holds

/-- The rules of a start comment are its list up to blanks at the ends. -/
theorem list_startComment (here : text.drop place = startComment list ++ rest)
    (listed : ∀ c ∈ list, listedChars.contains c = true) {stop : Nat} {notes after : Notes}
    (matched : (Expr.sequence blanks (.sequence listPart (.sequence blanks
      (.sequence closingPart .empty)))).Matches text (place + 18) notes stop after) :
    ∃ first last, first ≤ last ∧ blankChars.Spans text (place + 19) first ∧
      blankChars.Spans text last (place + 19 + list.length) ∧
      after = (notes.mark 4 first).mark 5 last := by
  have colon := getElem?_startComment here 18 rfl
  have star : text[place + 19 + list.length]? = some '*' := by
    rw [← Nat.add_zero (place + 19 + list.length), ← List.getElem?_drop, drop_closing here]
    rfl
  obtain ⟨middle, _, gap, later⟩ := Expr.matches_sequence_iff.mp matched
  obtain ⟨spans, rfl⟩ := matches_blanks_iff.mp gap
  obtain rfl : middle = place + 18 :=
    Nat.le_antisymm (stop_le_of_spans spans (Nat.le_refl _) colon (by decide)) spans.1
  obtain ⟨last, _, names, ending⟩ := Expr.matches_sequence_iff.mp later
  rcases Expr.matches_either_iff.mp names with written | missing
  · obtain ⟨first, _, leading, grouped⟩ :=
      Expr.matches_sequence_iff.mp (matches_literally_iff.mp written).2
    obtain ⟨front, rfl⟩ := matches_blanks_iff.mp leading
    obtain ⟨_, _, grouped, beyond⟩ := Expr.matches_sequence_iff.mp grouped
    obtain ⟨rfl, rfl⟩ := Expr.matches_empty_iff.mp beyond
    obtain ⟨_, body, rfl⟩ := Expr.matches_group_iff.mp grouped
    obtain ⟨_, _, body, beyond⟩ := Expr.matches_sequence_iff.mp body
    obtain ⟨rfl, rfl⟩ := Expr.matches_empty_iff.mp beyond
    obtain ⟨_, _, one, others⟩ := Expr.matches_sequence_iff.mp body
    obtain ⟨⟨c, read, member⟩, rfl, rfl⟩ := Expr.matches_one_iff.mp one
    obtain ⟨more, rfl⟩ := Expr.matches_run_iff.mp others
    obtain ⟨close, _, trailing, closing⟩ := Expr.matches_sequence_iff.mp ending
    obtain ⟨back, rfl⟩ := matches_blanks_iff.mp trailing
    -- Neither blanks nor the names run past the asterisk.
    have begun : place + 19 ≤ first := front.1
    have firstBound : first ≤ place + 19 + list.length :=
      stop_le_of_spans front (Nat.le_add_right ..) star (by decide)
    have firstMoved : first ≠ place + 19 + list.length := by
      rintro rfl
      rw [star, Option.some.injEq] at read
      exact absurd (read ▸ member) (by decide)
    have lastBound := stop_le_of_spans more (by omega) star (by decide)
    have closeBound := stop_le_of_spans back lastBound star (by decide)
    have firstLast := more.1
    have lastClose := back.1
    obtain ⟨rfl, rfl⟩ := closing_startComment here listed (by omega) closeBound closing
    exact ⟨first, last, by omega, front, back, rfl⟩
  · exfalso
    obtain ⟨rfl, rfl⟩ := Expr.matches_empty_iff.mp missing
    exact absurd (matches_ending ending colon) (by decide)

/-- Every match of the pattern at a start comment reads its kind, and its list up to blanks. -/
theorem notes_startComment (here : text.drop place = startComment list ++ rest)
    (listed : ∀ c ∈ list, listedChars.contains c = true) {stop : Nat} {notes : Notes}
    (matched : (Expr.group 0 markerExpr).Matches text place [] stop notes) :
    ∃ first last, first ≤ last ∧ blankChars.Spans text (place + 19) first ∧
      blankChars.Spans text last (place + 19 + list.length) ∧
      notes = [(1, stop), (5, last), (4, first), (3, place + 18), (2, place + 12), (0, place)] := by
  obtain ⟨_, body, rfl⟩ := Expr.matches_group_iff.mp matched
  obtain ⟨_, _, opening, later⟩ := Expr.matches_sequence_iff.mp body
  obtain ⟨rfl, rfl⟩ := opening_startComment here opening
  obtain ⟨middle, _, gap, later⟩ := Expr.matches_sequence_iff.mp later
  obtain ⟨spans, rfl⟩ := matches_blanks_iff.mp gap
  obtain ⟨word, later⟩ := matches_literally_iff.mp later
  obtain rfl := gap_startComment here spans word
  obtain ⟨_, _, kind, later⟩ := Expr.matches_sequence_iff.mp later
  obtain ⟨rfl, rfl⟩ := kind_startComment here kind later
  obtain ⟨first, last, ordered, front, back, rfl⟩ := list_startComment here listed later
  exact ⟨first, last, ordered, front, back, rfl⟩

theorem take_drop_split {first middle last : Nat} (left : first ≤ middle) (right : middle ≤ last) :
    (text.drop first).take (last - first) =
      (text.drop first).take (middle - first) ++ (text.drop middle).take (last - middle) := by
  obtain ⟨_, rfl⟩ := Nat.exists_eq_add_of_le left
  obtain ⟨_, rfl⟩ := Nat.exists_eq_add_of_le right
  rw [Nat.add_assoc, Nat.add_sub_cancel_left, Nat.add_sub_cancel_left, ← Nat.add_assoc,
    Nat.add_sub_cancel_left, List.take_add, List.drop_drop]

theorem separators_of_spans {start stop : Nat} (spans : blankChars.Spans text start stop) :
    ∀ c ∈ (text.drop start).take (stop - start), isSeparator c = true := by
  intro c member
  simp [isSeparator, isBlank_of_blankChars (mem_of_spans spans c member)]

/-- Blanks around the matched rules make no difference. -/
theorem ofText_startComment (here : text.drop place = startComment list ++ rest) {first last : Nat}
    (ordered : first ≤ last) (front : blankChars.Spans text (place + 19) first)
    (back : blankChars.Spans text last (place + 19 + list.length)) :
    RuleSet.ofText (some (slice text first last)) = RuleSet.ofText (some (String.ofList list)) := by
  have pieces : list = (text.drop (place + 19)).take (first - (place + 19)) ++
      (text.drop first).take (last - first) ++
        (text.drop last).take (place + 19 + list.length - last) := by
    rw [List.append_assoc, ← take_drop_split ordered back.1,
      ← take_drop_split front.1 (Nat.le_trans ordered back.1), Nat.add_sub_cancel_left,
      drop_list here, List.take_left]
  have names : listedNames (String.ofList list) = listedNames (slice text first last) := by
    rw [pieces]
    exact listedNames_surrounded (separators_of_spans front) (separators_of_spans back)
  rw [RuleSet.ofText_some, RuleSet.ofText_some, names]

end

/-- A marker comment stands at a place of a line. -/
def Marker.StandsAt (line : String) (place : Nat) : Prop :=
  markerExpr.MatchesAt line.toList place

/-- A line whose first marker is a start comment opens a region, whatever stands behind it. -/
theorem Marker.ofLine?_startComment {line : String} {before list rest : List Char}
    (shape : line.toList = before ++ (startComment list ++ rest)) (nonempty : list ≠ [])
    (listed : ∀ c ∈ list, listedChars.contains c = true)
    (earliest : ∀ place < before.length, ¬ Marker.StandsAt line place) :
    Marker.ofLine? line = some (.start (RuleSet.ofText (some (String.ofList list)))) := by
  have here : line.toList.drop before.length = startComment list ++ rest := by
    rw [shape, List.drop_left]
  have stands := matchesAt_startComment here nonempty listed
  rcases Expr.findFrom?_leftmost markerExpr line.toList (Nat.zero_le _) with
    ⟨start, stop, notes, -, -, matched, least, found⟩ | ⟨nowhere, -⟩
  · obtain rfl : start = before.length := by
      rcases Nat.lt_trichotomy start before.length with sooner | same | later
      · exact absurd ⟨stop, notes, matched⟩ (earliest start sooner)
      · exact same
      · exact absurd stands (least before.length (Nat.zero_le _) later)
    obtain ⟨first, last, ordered, front, back, rfl⟩ := notes_startComment here listed matched
    have kind : slice line.toList (before.length + 12) (before.length + 18) = "-start" := by
      rw [slice, drop_startComment here 12, Nat.add_sub_add_left]
      rfl
    have rules := ofText_startComment here ordered front back
    have lowered : Text.lower "-start" = "-start" := by decide
    have read : markerExpr.program.findFrom? line.toList 0 = some
        { start := before.length, stop
          groups := [(2, first, last), (1, before.length + 12, before.length + 18)] } := by
      simp [found, matchOf?, Notes.at?]
    rw [Marker.ofLine?, markerPattern_eq, read]
    simp [Match.group?, kind, lowered, rules]
  · have bound : before.length ≤ line.toList.length := by
      rw [shape, List.length_append]
      exact Nat.le_add_right ..
    exact absurd stands (nowhere before.length (Nat.zero_le _) bound)

end PlcAudit.Review
