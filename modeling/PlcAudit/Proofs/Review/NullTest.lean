import Mathlib.Data.List.Infix
import PlcAudit.Proofs.Review.Spelling
import PlcAudit.Proofs.Text.Pattern.Occurrence
import PlcAudit.Review.Rule.Access

/-!
Comparisons with null. The pattern of a comparison reads it in one way only, and no comparison
begins inside another, so that the listed ones are all there are in a code.
-/

namespace PlcAudit.Review

open Pattern

/-! Comparisons as they are written -/

/-- Nothing but blanks. -/
def IsGap (gap : List Char) : Prop :=
  ∀ c ∈ gap, Text.isBlank c = true

instance (gap : List Char) : Decidable (IsGap gap) :=
  decidable_of_iff (gap.all Text.isBlank = true) List.all_eq_true

/-- A comparison of a pointer with null as in `IF p <> 0`, in the pieces it is written with. -/
structure NullTest (name : String) where
  keyword : List Char
  lead : List Char
  tested : List Char
  gap : List Char
  inner : List Char
  tail : List Char
  null : List Char
  isKeyword : Spells keyword "IF"
  separated : lead ≠ []
  isLead : IsGap lead
  isName : Spells tested name
  isGap : IsGap gap
  isInner : IsGap inner
  isTail : IsGap tail
  isNull : ∃ word ∈ ["NULL", "0", "16#0"], Spells null word

def NullTest.text {name : String} (test : NullTest name) : List Char :=
  test.keyword ++ test.lead ++ test.tested ++ test.gap ++ ['<'] ++ test.inner ++ ['>'] ++
    test.tail ++ test.null

/-- The code compares the pointer with null. -/
def NullTested (code name : String) : Prop :=
  ∃ test : NullTest name, test.text <:+: code.toList

/-! The pattern of a comparison with null -/

def unequalPart : Expr :=
  .either (literally "<>" .empty) (literally "<" (.sequence blanks (literally ">" .empty)))

def nullPart : Expr :=
  .either (literally "NULL" .empty) (.either (literally "0" .empty) (literally "16#0" .empty))

/-- The pattern of a comparison with null, part by part. -/
def nullTestExpr : Expr :=
  literally "IF" (.sequence (someOf blankChars)
    (.sequence (.group 1 (.sequence (someOf wordChars) .empty)) (.sequence blanks
      (.sequence (.group 2 unequalPart) (.sequence blanks
        (.sequence (.group 3 nullPart) .empty))))))

theorem nullTestPattern_eq : nullTestPattern = nullTestExpr.program :=
  compile_of_parse (by decide +kernel)

/-- A null value stands between two places. -/
def NullAt (text : List Char) (start stop : Nat) : Prop :=
  ∃ word ∈ ["NULL", "0", "16#0"], Reads text word start ∧ stop = start + word.length

/-- The parts of a comparison with null, by the places where they begin and end: the comparison
itself, the name, the two characters of the operator and the null value. -/
structure NullTestAt (text : List Char) (start first last less more value stop : Nat) : Prop where
  keyword : Reads text "IF" start
  separated : start + 2 < first
  lead : blankChars.Spans text (start + 2) first
  nonempty : first < last
  tested : wordChars.Spans text first last
  gap : blankChars.Spans text last less
  opening : Reads text "<" less
  inner : blankChars.Spans text (less + 1) more
  closing : Reads text ">" more
  tail : blankChars.Spans text (more + 1) value
  null : NullAt text value stop

section

variable {text : List Char} {start stop : Nat} {notes after : Notes}

theorem matches_unequal_iff :
    unequalPart.Matches text start notes stop after ↔
      ∃ more, Reads text "<" start ∧ blankChars.Spans text (start + 1) more ∧
        Reads text ">" more ∧ stop = more + 1 ∧ after = notes := by
  constructor
  · intro matched
    rcases Expr.matches_either_iff.mp matched with joined | parted
    · have apart : literally "<>" .empty = literally "<" (literally ">" .empty) := by decide
      rw [apart] at joined
      obtain ⟨less, later⟩ := matches_literally_iff.mp joined
      obtain ⟨greater, rfl, rfl⟩ := matches_word_iff.mp later
      exact ⟨start + 1, less, ⟨Nat.le_refl _, fun place _ _ => by omega⟩, greater, rfl, rfl⟩
    · obtain ⟨less, later⟩ := matches_literally_iff.mp parted
      obtain ⟨more, _, gap, ending⟩ := Expr.matches_sequence_iff.mp later
      obtain ⟨spans, rfl⟩ := matches_blanks_iff.mp gap
      obtain ⟨greater, rfl, rfl⟩ := matches_word_iff.mp ending
      exact ⟨more, less, spans, greater, rfl, rfl⟩
  · rintro ⟨more, less, spans, greater, rfl, rfl⟩
    exact .other (matches_literally_iff.mpr ⟨less, .sequence (matches_blanks_iff.mpr ⟨spans, rfl⟩)
      (matches_word_iff.mpr ⟨greater, rfl, rfl⟩)⟩)

theorem matches_null_iff :
    nullPart.Matches text start notes stop after ↔ NullAt text start stop ∧ after = notes := by
  simp only [nullPart, Expr.matches_either_iff, matches_word_iff, NullAt, List.mem_cons,
    List.not_mem_nil, or_false, exists_eq_or_imp, exists_eq_left]
  simp only [or_and_right, and_assoc]

theorem matches_nullTest_iff :
    (Expr.group 0 nullTestExpr).Matches text start [] stop notes ↔
      ∃ first last less more value, NullTestAt text start first last less more value stop ∧
        notes = [(1, stop), (7, stop), (6, value), (5, more + 1), (4, less), (3, last),
          (2, first), (0, start)] := by
  constructor
  · intro matched
    obtain ⟨_, body, rfl⟩ := Expr.matches_group_iff.mp matched
    obtain ⟨keyword, later⟩ := matches_literally_iff.mp body
    obtain ⟨first, _, ahead, later⟩ := Expr.matches_sequence_iff.mp later
    obtain ⟨⟨separated, lead⟩, rfl⟩ := matches_someOf_iff.mp ahead
    obtain ⟨last, _, grouped, later⟩ := Expr.matches_sequence_iff.mp later
    obtain ⟨_, word, rfl⟩ := Expr.matches_group_iff.mp grouped
    obtain ⟨_, _, letters, done⟩ := Expr.matches_sequence_iff.mp word
    obtain ⟨rfl, rfl⟩ := Expr.matches_empty_iff.mp done
    obtain ⟨⟨nonempty, tested⟩, rfl⟩ := matches_someOf_iff.mp letters
    obtain ⟨less, _, between, later⟩ := Expr.matches_sequence_iff.mp later
    obtain ⟨gap, rfl⟩ := matches_blanks_iff.mp between
    obtain ⟨_, _, grouped, later⟩ := Expr.matches_sequence_iff.mp later
    obtain ⟨_, compared, rfl⟩ := Expr.matches_group_iff.mp grouped
    obtain ⟨more, opening, inner, closing, rfl, rfl⟩ := matches_unequal_iff.mp compared
    obtain ⟨value, _, behind, later⟩ := Expr.matches_sequence_iff.mp later
    obtain ⟨tail, rfl⟩ := matches_blanks_iff.mp behind
    obtain ⟨_, _, grouped, done⟩ := Expr.matches_sequence_iff.mp later
    obtain ⟨rfl, rfl⟩ := Expr.matches_empty_iff.mp done
    obtain ⟨_, ended, rfl⟩ := Expr.matches_group_iff.mp grouped
    obtain ⟨null, rfl⟩ := matches_null_iff.mp ended
    exact ⟨first, last, less, more, value, ⟨keyword, separated, lead, nonempty, tested, gap,
      opening, inner, closing, tail, null⟩, rfl⟩
  · rintro ⟨first, last, less, more, value, test, rfl⟩
    exact .group (matches_literally_iff.mpr ⟨test.keyword, .sequence
      (matches_someOf_iff.mpr ⟨⟨test.separated, test.lead⟩, rfl⟩) (.sequence
        (.group (.sequence (matches_someOf_iff.mpr ⟨⟨test.nonempty, test.tested⟩, rfl⟩) .empty))
        (.sequence (matches_blanks_iff.mpr ⟨test.gap, rfl⟩) (.sequence
          (.group (matches_unequal_iff.mpr
            ⟨more, test.opening, test.inner, test.closing, rfl, rfl⟩))
          (.sequence (matches_blanks_iff.mpr ⟨test.tail, rfl⟩) (.sequence
            (.group (matches_null_iff.mpr ⟨test.null, rfl⟩)) .empty)))))⟩)

end

/-! Comparisons stand apart -/

theorem blankChars_of_word {c : Char} (word : Text.isWord c = true) :
    blankChars.contains c = false := by
  rw [blankChars_contains]
  exact not_isBlank_of_isWord word

theorem wordChars_of_blank {c : Char} (blank : blankChars.contains c = true) :
    wordChars.contains c = false := by
  rw [wordChars_contains]
  exact not_isWord_of_isBlank (isBlank_of_blankChars blank)

theorem plain_keyword : ∀ c ∈ "IF".toList, isPlain c = true :=
  List.all_eq_true.mp (by decide)

/-- Null values are written without special letters, and without an `i`. -/
theorem plain_null : ∀ word ∈ ["NULL", "0", "16#0"], ∀ c ∈ word.toList,
    isPlain c = true ∧ c.toUpper ≠ 'I' := by
  have all : ∀ word ∈ ["NULL", "0", "16#0"],
      (word.toList.all fun c => isPlain c && c.toUpper != 'I') = true := by decide
  intro word listed c inside
  simpa using List.all_eq_true.mp (all word listed) c inside

section

variable {text : List Char} {start first last less more value stop place : Nat} {c : Char}

theorem Reads.symbol {word : String} (reads : Reads text word start) (only : word.toList = [c])
    (letterless : c.isAlpha = false) (special : c ∉ ['\u212A', '\u017F']) :
    text[start]? = some c := by
  obtain ⟨d, read, inside⟩ := reads 0 c (by rw [only]; rfl)
  rw [eq_of_letter_symbol letterless special inside] at read
  exact read

namespace NullTestAt

variable (test : NullTestAt text start first last less more value stop)

include test

theorem less_read : text[less]? = some '<' :=
  test.opening.symbol rfl (by decide) (by decide)

theorem more_read : text[more]? = some '>' :=
  test.closing.symbol rfl (by decide) (by decide)

/-- The name ends where no word goes on. -/
theorem exists_behind : ∃ c, text[last]? = some c ∧ wordChars.contains c = false := by
  rcases Nat.eq_or_lt_of_le test.gap.1 with rfl | blank
  · exact ⟨'<', test.less_read, by decide⟩
  · obtain ⟨c, read, inside⟩ := test.gap.2 last (Nat.le_refl _) blank
    exact ⟨c, read, wordChars_of_blank inside⟩

/-- An `i` behind the keyword of a comparison is one of its name. -/
theorem inside_name (behind : start < place) (before : place < stop)
    (read : text[place]? = some c) (letterI : c.toUpper = 'I') : first ≤ place ∧ place < last := by
  have word : Text.isWord c = true := by
    rw [← isWord_toUpper, letterI]
    decide
  have outside := blankChars_of_word word
  have pastKeyword : place ≠ start + 1 := by
    rintro rfl
    have other := (letter_contains_iff (by decide)).mp (test.keyword.contains 1 rfl read)
    exact absurd (letterI.symm.trans other) (by decide)
  refine ⟨stop_le_of_spans test.lead (by omega) read outside, ?_⟩
  -- Behind the name there are only blanks, the operator and the null value.
  by_contra beyond
  have pastGap := stop_le_of_spans test.gap (by omega) read outside
  have pastLess : place ≠ less := by
    rintro rfl
    rw [test.less_read, Option.some.injEq] at read
    exact absurd letterI (by rw [← read]; decide)
  have pastInner := stop_le_of_spans test.inner (by omega) read outside
  have pastMore : place ≠ more := by
    rintro rfl
    rw [test.more_read, Option.some.injEq] at read
    exact absurd letterI (by rw [← read]; decide)
  have pastTail := stop_le_of_spans test.tail (by omega) read outside
  obtain ⟨null, listed, reads, rfl⟩ := test.null
  obtain ⟨index, rfl⟩ := Nat.exists_eq_add_of_le pastTail
  obtain ⟨d, found⟩ : ∃ d, null.toList[index]? = some d :=
    ⟨_, List.getElem?_eq_getElem (by rw [String.length_toList]; omega)⟩
  have member := List.mem_of_getElem? found
  obtain ⟨plain, foreign⟩ := plain_null null listed d member
  have same := (letter_contains_iff plain).mp (reads.contains index found read)
  exact foreign (same.symm.trans letterI)

/-- No comparison begins inside another. -/
theorem start_eq {start' first' last' less' more' value' stop' : Nat}
    (other : NullTestAt text start' first' last' less' more' value' stop')
    (behind : start ≤ start') (before : start' < stop) : start' = start := by
  by_contra different
  obtain ⟨c, readI, letterI⟩ := other.keyword 0 'I' rfl
  obtain ⟨d, readF, letterF⟩ := other.keyword 1 'F' rfl
  rw [letter_contains_iff (by decide)] at letterI letterF
  obtain ⟨begun, within⟩ := test.inside_name (by omega) before readI letterI
  have wordF : Text.isWord d = true := by
    rw [← isWord_toUpper, letterF]
    decide
  -- The keyword of the other comparison ends the name of this one.
  have ending : last = start' + 2 := by
    obtain ⟨e, readE, outside⟩ := test.exists_behind
    have notLast : start' + 1 ≠ last := by
      rintro rfl
      rw [readF, Option.some.injEq] at readE
      rw [← readE, wordChars_contains, wordF] at outside
      cases outside
    have separated := other.separated
    obtain ⟨b, readB, blank⟩ := other.lead.2 (start' + 2) (Nat.le_refl _) separated
    have bound := stop_le_of_spans test.tested (by omega) readB (wordChars_of_blank blank)
    omega
  -- So its own name would begin where the operator of this one stands.
  obtain ⟨w, readW, letter⟩ := other.tested.2 first' (Nat.le_refl _) other.nonempty
  rw [wordChars_contains] at letter
  have late := stop_le_of_spans test.gap (by have := other.separated; omega) readW
    (blankChars_of_word letter)
  have early :=
    stop_le_of_spans other.lead (by have := test.gap.1; omega) test.less_read (by decide)
  obtain rfl : first' = less := Nat.le_antisymm early late
  rw [test.less_read, Option.some.injEq] at readW
  rw [← readW] at letter
  exact absurd letter (by decide)

/-- A comparison is about one name only. -/
theorem name_eq {first' last' less' more' value' stop' : Nat}
    (other : NullTestAt text start first' last' less' more' value' stop') :
    first' = first ∧ last' = last := by
  have notBefore {first last less more value stop first' last' less' more' value' stop' : Nat}
      (test : NullTestAt text start first last less more value stop)
      (other : NullTestAt text start first' last' less' more' value' stop') : first' ≤ first := by
    obtain ⟨c, read, letter⟩ := test.tested.2 first (Nat.le_refl _) test.nonempty
    rw [wordChars_contains] at letter
    exact stop_le_of_spans other.lead test.lead.1 read (blankChars_of_word letter)
  obtain rfl : first' = first := Nat.le_antisymm (notBefore test other) (notBefore other test)
  obtain ⟨c, read, outside⟩ := test.exists_behind
  obtain ⟨c', read', outside'⟩ := other.exists_behind
  refine ⟨rfl, Nat.le_antisymm ?_ ?_⟩
  · exact stop_le_of_spans other.tested test.tested.1 read outside
  · exact stop_le_of_spans test.tested other.tested.1 read' outside'

end NullTestAt

theorem nullTestExpr_solid (text : List Char) : nullTestExpr.Solid text := by
  intro start stop notes matched
  obtain ⟨first, last, less, more, value, test, rfl⟩ := matches_nullTest_iff.mp matched
  refine ⟨?_, [(3, value, stop), (2, less, more + 1), (1, first, last)], ?_⟩
  · obtain ⟨null, listed, -, rfl⟩ := test.null
    have := test.separated
    have := test.nonempty
    have := test.gap.1
    have := test.inner.1
    have := test.tail.1
    omega
  · simp [matchOf?, Notes.at?]

/-- The listed comparisons, by the names they are about, are all there are. -/
theorem group_nullTests_iff {tested : String} :
    (∃ found ∈ nullTestPattern.findAll text, found.group? text 1 = some tested) ↔
      ∃ start first last less more value stop,
        NullTestAt text start first last less more value stop ∧ slice text first last = tested := by
  have listed {found : Match} (member : found ∈ nullTestPattern.findAll text) :
      ∃ first last less more value,
        NullTestAt text found.start first last less more value found.stop ∧
          found.group? text 1 = some (slice text first last) := by
    rw [nullTestPattern_eq] at member
    obtain ⟨notes, matched, read⟩ := (nullTestExpr_solid text).fits_of_mem member
    obtain ⟨first, last, less, more, value, test, rfl⟩ := matches_nullTest_iff.mp matched
    have groups :
        found.groups = [(3, value, found.stop), (2, less, more + 1), (1, first, last)] := by
      have same := congrArg (Option.map Match.groups) read
      simpa [matchOf?, Notes.at?] using same.symm
    exact ⟨first, last, less, more, value, test, by simp [Match.group?, groups]⟩
  constructor
  · rintro ⟨found, member, group⟩
    obtain ⟨first, last, less, more, value, test, named⟩ := listed member
    exact ⟨found.start, first, last, less, more, value, found.stop, test,
      Option.some.inj (named.symm.trans group)⟩
  · rintro ⟨start, first, last, less, more, value, stop, test, rfl⟩
    obtain ⟨found, member, started, ended⟩ := (nullTestExpr_solid text).exists_mem
      ⟨stop, _, matches_nullTest_iff.mpr ⟨first, last, less, more, value, test, rfl⟩⟩
    rw [← nullTestPattern_eq] at member
    obtain ⟨first', last', less', more', value', other, named⟩ := listed member
    have same := other.start_eq test started ended
    rw [← same] at other
    obtain ⟨rfl, rfl⟩ := other.name_eq test
    exact ⟨found, member, named⟩

end

/-! Comparisons by pieces and by places -/

theorem isGap_iff {gap : List Char} : IsGap gap ↔ ∀ c ∈ gap, blankChars.contains c = true := by
  simp only [IsGap, blankChars_contains]

theorem Spells.isWord {piece : List Char} {name : String} (spells : Spells piece name)
    (word : ∀ c ∈ name.toList, Text.isWord c = true) : ∀ c ∈ piece, Text.isWord c = true := by
  intro c inside
  have shared := List.mem_map_of_mem (f := Char.toUpper) inside
  rw [spells_iff.mp spells] at shared
  obtain ⟨d, member, same⟩ := List.mem_map.mp shared
  rw [← isWord_toUpper, ← same, isWord_toUpper, word d member]

section

variable {text : List Char} {name : String}

/-- A comparison that is spelled out somewhere stands there. -/
theorem NullTest.exists_nullTestAt (test : NullTest name) (nonempty : name ≠ "")
    (word : ∀ c ∈ name.toList, Text.isWord c = true) (present : test.text <:+: text) :
    ∃ start first last less more value stop,
      NullTestAt text start first last less more value stop ∧
        slice text first last = String.ofList test.tested := by
  obtain ⟨before, after, shape⟩ := present
  have here : text.drop before.length = test.keyword ++ (test.lead ++ (test.tested ++ (test.gap ++
      (['<'] ++ (test.inner ++ (['>'] ++ (test.tail ++ (test.null ++ after)))))))) := by
    rw [← shape, List.append_assoc, List.drop_left]
    simp [NullTest.text]
  have two : test.keyword.length = 2 := test.isKeyword.length_eq
  have lead := two ▸ drop_behind here
  have tested := drop_behind lead
  have gap := drop_behind tested
  have less := drop_behind gap
  have inner := drop_behind less
  have more := drop_behind inner
  have tail := drop_behind more
  have null := drop_behind tail
  obtain ⟨value, listed, spells⟩ := test.isNull
  have separated := List.length_pos_iff.mpr test.separated
  have length : 0 < test.tested.length := by
    rw [test.isName.length_eq, ← String.length_toList]
    exact List.length_pos_iff.mpr (mt String.toList_eq_nil_iff.mp nonempty)
  refine ⟨before.length, _, _, _, _, _, _, ⟨.of_spells plain_keyword here test.isKeyword, ?_,
    spans_of_drop _ lead (isGap_iff.mp test.isLead), ?_,
    spans_of_drop _ tested fun c inside => ?_, spans_of_drop _ gap (isGap_iff.mp test.isGap),
    .of_drop less, spans_of_drop _ inner (isGap_iff.mp test.isInner), .of_drop more,
    spans_of_drop _ tail (isGap_iff.mp test.isTail),
    ⟨value, listed,
      .of_spells (fun c inside => (plain_null value listed c inside).1) null spells, rfl⟩⟩, ?_⟩
  · omega
  · omega
  · rw [wordChars_contains]
    exact test.isName.isWord word c inside
  · rw [slice, tested, Nat.add_sub_cancel_left, List.take_left]

theorem NullTestAt.exists_nullTest {start first last less more value stop : Nat}
    (test : NullTestAt text start first last less more value stop)
    (named : Text.sameName (slice text first last) name = true) :
    ∃ test : NullTest name, test.text <:+: text := by
  obtain ⟨null, listed, reads, rfl⟩ := test.null
  have spells := reads.spells fun c inside => (plain_null null listed c inside).1
  have keyword := test.keyword.spells plain_keyword
  have lead : (text.drop (start + 2)).take (first - (start + 2)) ≠ [] := by
    obtain ⟨c, read, -⟩ := test.lead.2 (start + 2) (Nat.le_refl _) test.separated
    intro empty
    have head := congrArg List.head? empty
    have room : first - (start + 2) ≠ 0 := by have := test.separated; omega
    simp [List.head?_take, List.head?_drop, room, read] at head
  refine ⟨{
    keyword := (text.drop start).take 2
    lead := (text.drop (start + 2)).take (first - (start + 2))
    tested := (text.drop first).take (last - first)
    gap := (text.drop last).take (less - last)
    inner := (text.drop (less + 1)).take (more - (less + 1))
    tail := (text.drop (more + 1)).take (value - (more + 1))
    null := (text.drop value).take null.length
    isKeyword := keyword
    separated := lead
    isLead := isGap_iff.mpr (mem_of_spans test.lead)
    isName := named
    isGap := isGap_iff.mpr (mem_of_spans test.gap)
    isInner := isGap_iff.mpr (mem_of_spans test.inner)
    isTail := isGap_iff.mpr (mem_of_spans test.tail)
    isNull := ⟨null, listed, spells⟩ }, ?_⟩
  have less_piece : (text.drop less).take (less + 1 - less) = ['<'] := by
    simp [List.take_one, List.head?_drop, test.less_read]
  have more_piece : (text.drop more).take (more + 1 - more) = ['>'] := by
    simp [List.take_one, List.head?_drop, test.more_read]
  have := test.lead.1
  have := test.tested.1
  have := test.gap.1
  have := test.inner.1
  have := test.tail.1
  have whole : (text.drop start).take (value + null.length - start) <:+: text :=
    (List.take_prefix ..).isInfix.trans (List.drop_suffix ..).isInfix
  rw [take_drop_split (show start ≤ start + 2 by omega) (by omega),
    take_drop_split (show start + 2 ≤ first by omega) (by omega),
    take_drop_split (show first ≤ last by omega) (by omega),
    take_drop_split (show last ≤ less by omega) (by omega),
    take_drop_split (show less ≤ less + 1 by omega) (by omega),
    take_drop_split (show less + 1 ≤ more by omega) (by omega),
    take_drop_split (show more ≤ more + 1 by omega) (by omega),
    take_drop_split (show more + 1 ≤ value by omega) (by omega), less_piece, more_piece,
    Nat.add_sub_cancel_left, Nat.add_sub_cancel_left] at whole
  simpa only [NullTest.text, List.append_assoc] using whole

end

end PlcAudit.Review
