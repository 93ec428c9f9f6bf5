import PlcAudit.Proofs.Review.Spelling
import PlcAudit.Proofs.Text.Pattern.Count
import PlcAudit.Review.Rule.Structure

/-!
Keywords. A keyword stands in a text where it is read, in any letter case, and neither side goes on
as a word. The patterns of keywords match exactly there: those that are bound to the start of a text
if it begins with a keyword, the others if it has one anywhere.
-/

namespace PlcAudit.Review

open Pattern Code

/-- A line without its comments and outer blanks. -/
def bareLine (line : String) : String :=
  Text.trim (uncommented line)

theorem bareLines_eq (code : String) : bareLines code = (Text.lines code).map bareLine := by
  rw [bareLines, uncommentedLines, List.map_map]
  rfl

/-- The word stands at a place as a whole, in any letter case. -/
structure WordAt (text : List Char) (word : String) (start : Nat) : Prop where
  reads : Reads text word start
  before : (before? text start).any Text.isWord = false
  behind : text[start + word.length]?.any Text.isWord = false

/-- The line begins with the word. -/
def Begins (line word : String) : Prop :=
  WordAt (bareLine line).toList word 0

/-- The line has the word somewhere. -/
def Holds (line word : String) : Prop :=
  ∃ start, WordAt (bareLine line).toList word start

section

variable {text : List Char} {word : String} {start : Nat}

theorem reads_iff_all :
    (word.toList.zipIdx.all fun (c, index) => text[start + index]?.any (letter c).contains) = true ↔
      Reads text word start := by
  simp only [List.all_eq_true, Prod.forall, List.mem_zipIdx_iff_getElem?, Option.any_eq_true, Reads]
  exact forall_comm

instance : Decidable (Reads text word start) :=
  decidable_of_iff _ reads_iff_all

instance : Decidable (WordAt text word start) :=
  decidable_of_iff
    (Reads text word start ∧ (before? text start).any Text.isWord = false ∧
      text[start + word.length]?.any Text.isWord = false)
    ⟨fun ⟨reads, before, behind⟩ => ⟨reads, before, behind⟩,
      fun found => ⟨found.reads, found.before, found.behind⟩⟩

instance (line : String) : Decidable (Begins line word) :=
  inferInstanceAs (Decidable (WordAt ..))

/-! Letters of keywords -/

/-- The word has a letter, and nothing but word characters. -/
def isKeyword (word : String) : Bool :=
  !word.toList.isEmpty && word.toList.all Text.isWord

theorem isWord_of_letter {c d : Char} (word : Text.isWord c = true)
    (same : (letter c).contains d = true) : Text.isWord d = true := by
  simp only [letter, CharSet.contains, if_true, Item.holds, List.any_cons, List.any_nil,
    Bool.or_false, bne_iff_ne, ne_eq, Bool.not_eq_false, List.any_eq_true, Bool.and_eq_true,
    decide_eq_true_eq] at same
  obtain ⟨variant, member, first, last⟩ := same
  obtain rfl : variant = c := Char.le_antisymm last first
  rwa [← isWord_of_mem_caseVariants member]

theorem reads_symbol_iff {c : Char} (letterless : c.isAlpha = false)
    (special : c ∉ ['\u212A', '\u017F']) :
    Reads text (String.singleton c) start ↔ text[start]? = some c := by
  constructor
  · intro reads
    obtain ⟨d, read, same⟩ := reads 0 c (by simp)
    rwa [eq_of_letter_symbol letterless special same] at read
  · intro read index d found
    obtain ⟨inside, rfl⟩ := List.getElem?_eq_some_iff.mp found
    obtain rfl : index = 0 := by simpa using inside
    exact ⟨c, read, by simpa using letter_self c⟩

theorem length_pos_of_isKeyword (keyword : isKeyword word = true) : 0 < word.length := by
  simp only [isKeyword, Bool.and_eq_true, Bool.not_eq_true', List.isEmpty_eq_false_iff] at keyword
  rw [← String.length_toList]
  exact List.length_pos_iff.mpr keyword.1

/-- The characters at which a keyword is read are word characters. -/
theorem Reads.exists_isWord (reads : Reads text word start) (keyword : isKeyword word = true)
    {index : Nat} (inside : index < word.length) :
    ∃ d, text[start + index]? = some d ∧ Text.isWord d = true := by
  rw [← String.length_toList] at inside
  simp only [isKeyword, Bool.and_eq_true, List.all_eq_true] at keyword
  obtain ⟨d, read, same⟩ := reads index _ (List.getElem?_eq_getElem inside)
  exact ⟨d, read, isWord_of_letter (keyword.2 _ (List.getElem_mem inside)) same⟩

theorem Reads.end_le (reads : Reads text word start) (keyword : isKeyword word = true) :
    start + word.length ≤ text.length := by
  have nonempty := length_pos_of_isKeyword keyword
  obtain ⟨d, read, -⟩ := reads.exists_isWord keyword (Nat.sub_lt nonempty Nat.one_pos)
  have bound := (List.getElem?_eq_some_iff.mp read).1
  omega

/-- The edge in front of a keyword. -/
theorem wordEdge_before_iff (reads : Reads text word start) (keyword : isKeyword word = true) :
    Anchor.wordEdge.holds (before? text start) text[start]? = true ↔
      (before? text start).any Text.isWord = false := by
  obtain ⟨d, read, letter⟩ := reads.exists_isWord keyword (length_pos_of_isKeyword keyword)
  rw [Nat.add_zero] at read
  simp [Anchor.holds, atWordEdge, read, letter]

/-- The edge behind a keyword. -/
theorem wordEdge_behind_iff (reads : Reads text word start) (keyword : isKeyword word = true) :
    Anchor.wordEdge.holds (before? text (start + word.length)) text[start + word.length]? = true ↔
      text[start + word.length]?.any Text.isWord = false := by
  have nonempty := length_pos_of_isKeyword keyword
  obtain ⟨d, read, letter⟩ := reads.exists_isWord keyword (Nat.sub_lt nonempty Nat.one_pos)
  have last : before? text (start + word.length) = some d := by
    rw [before?, if_neg (by omega), ← read]
    congr 1
    omega
  simp [Anchor.holds, atWordEdge, last, letter]

theorem textStart_iff (reads : Reads text word start) (keyword : isKeyword word = true) :
    Anchor.textStart.holds (before? text start) text[start]? = true ↔ start = 0 := by
  have bound := reads.end_le keyword
  have nonempty := length_pos_of_isKeyword keyword
  simp only [Anchor.holds, before?, Option.isNone_iff_eq_none, ite_eq_left_iff,
    List.getElem?_eq_none_iff]
  omega

/-- A word does not go on inside another one. -/
theorem WordAt.eq_of_overlap {other : String} {start' : Nat} (here : WordAt text word start)
    (there : WordAt text other start') (keyword : isKeyword word = true)
    (keyword' : isKeyword other = true) (behind : start ≤ start')
    (inside : start' < start + word.length) :
    start' + other.length = start + word.length := by
  have same : start' = start := by
    by_contra different
    obtain ⟨d, read, letter⟩ := here.reads.exists_isWord keyword
      (show start' - 1 - start < word.length by omega)
    rw [show start + (start' - 1 - start) = start' - 1 by omega] at read
    have apart := there.before
    rw [before?, if_neg (by omega), read, Option.any_some, letter] at apart
    cases apart
  subst same
  -- Each of the two ends where the other cannot go on.
  have notShorter {first second : String} (one : WordAt text first start')
      (two : WordAt text second start') (keyword : isKeyword second = true) :
      second.length ≤ first.length := by
    by_contra shorter
    obtain ⟨d, read, letter⟩ := two.reads.exists_isWord keyword (Nat.lt_of_not_le shorter)
    have apart := one.behind
    rw [read, Option.any_some, letter] at apart
    cases apart
  have := notShorter here there keyword'
  have := notShorter there here keyword
  omega

end

/-! Texts in upper case -/

/-- The word is written in upper case, with letters that have no variants outside ASCII. -/
def isCapital (word : String) : Bool :=
  word.toList.all fun c => isPlain c && c.toUpper == c

section

variable {word : String}

theorem isPlain_of_isCapital (capital : isCapital word = true) :
    ∀ c ∈ word.toList, isPlain c = true ∧ c.toUpper = c := by
  intro c inside
  simpa using List.all_eq_true.mp capital c inside

theorem reads_iff_upper {text : List Char} {start : Nat} (capital : isCapital word = true) :
    Reads text word start ↔ word.toList <+: (text.drop start).map Char.toUpper := by
  rw [List.prefix_iff_getElem?]
  constructor
  · intro reads index inside
    obtain ⟨d, read, same⟩ := reads index _ (List.getElem?_eq_getElem inside)
    obtain ⟨plain, upper⟩ := isPlain_of_isCapital capital _ (List.getElem_mem inside)
    rw [List.getElem?_map, List.getElem?_drop, read, Option.map_some,
      (letter_contains_iff plain).mp same, upper]
  · intro starts index c found
    obtain ⟨inside, rfl⟩ := List.getElem?_eq_some_iff.mp found
    have read := starts index inside
    rw [List.getElem?_map, List.getElem?_drop, Option.map_eq_some_iff] at read
    obtain ⟨d, read, same⟩ := read
    obtain ⟨plain, upper⟩ := isPlain_of_isCapital capital _ (List.getElem_mem inside)
    exact ⟨d, read, (letter_contains_iff plain).mpr (same.trans upper.symm)⟩

theorem hasStart_upper_iff {text : String} (capital : isCapital word = true) :
    Text.hasStart (Text.upper text) word = true ↔ Reads text.toList word 0 := by
  rw [Text.hasStart, List.isPrefixOf_iff_prefix, Text.upper, String.toList_ofList,
    reads_iff_upper capital, List.drop_zero]

theorem upper_eq_iff {text : String} (capital : isCapital word = true) :
    Text.upper text = word ↔ Reads text.toList word 0 ∧ text.toList.length = word.length := by
  rw [reads_iff_upper capital, List.drop_zero, ← String.toList_inj, Text.upper,
    String.toList_ofList, ← String.length_toList]
  constructor
  · intro same
    exact ⟨same ▸ List.prefix_refl _, by rw [← same, List.length_map]⟩
  · rintro ⟨starts, length⟩
    exact (starts.eq_of_length (by rw [List.length_map, length])).symm

theorem reads_append_iff {text : List Char} {start : Nat} {first second : String} :
    Reads text (first ++ second) start ↔
      Reads text first start ∧ Reads text second (start + first.length) := by
  simp only [Reads, String.toList_append]
  constructor
  · intro reads
    constructor
    · intro index c found
      have inside := (List.getElem?_eq_some_iff.mp found).1
      exact reads index c (by rw [List.getElem?_append_left inside, found])
    · intro index c found
      rw [Nat.add_assoc, ← String.length_toList]
      exact reads _ c (by
        rw [List.getElem?_append_right (Nat.le_add_right ..), Nat.add_sub_cancel_left, found])
  · rintro ⟨one, two⟩ index c found
    by_cases inside : index < first.toList.length
    · exact one index c (by rwa [List.getElem?_append_left inside] at found)
    · have behind := Nat.le_of_not_lt inside
      rw [List.getElem?_append_right behind] at found
      obtain ⟨d, read, same⟩ := two _ c found
      rw [← String.length_toList, Nat.add_assoc, Nat.add_sub_cancel' behind] at read
      exact ⟨d, read, same⟩

/-- Words that are read at one place begin with the same letter. -/
theorem Reads.letter_eq {text : List Char} {start : Nat} {other : String} {c d : Char}
    (here : Reads text word start) (there : Reads text other start)
    (first : word.toList.head? = some c) (second : other.toList.head? = some d)
    (plain : isPlain c = true ∧ isPlain d = true) : c.toUpper = d.toUpper := by
  rw [List.head?_eq_getElem?] at first second
  obtain ⟨e, read, same⟩ := here 0 c first
  have also := there.contains 0 second read
  rw [← (letter_contains_iff plain.1).mp same, (letter_contains_iff plain.2).mp also]

end

/-! Patterns of keywords -/

/-- One of several words. -/
def oneOf : List String → Expr
  | [] => .empty
  | [word] => literally word .empty
  | word :: other :: words => .either (literally word .empty) (oneOf (other :: words))

def behindWord : Expr := .sequence (.anchor .wordEdge) .empty

/-- A word with a condition on its front. -/
def wordExpr (front : Anchor) (word : String) : Expr :=
  .sequence (.anchor front) (literally word behindWord)

/-- One of several words with a condition on its front. -/
def wordsExpr (front : Anchor) (words : List String) : Expr :=
  .sequence (.anchor front) (.sequence (.group 1 (oneOf words)) behindWord)

section

variable {text : List Char} {front : Anchor} {word : String} {words : List String}
  {start stop : Nat} {notes after : Notes}

theorem matches_oneOf_iff (nonempty : words ≠ []) :
    (oneOf words).Matches text start notes stop after ↔
      (∃ word ∈ words, Reads text word start ∧ stop = start + word.length) ∧ after = notes := by
  fun_induction oneOf words with
  | case1 => exact absurd rfl nonempty
  | case2 word => simp [matches_word_iff, and_assoc]
  | case3 word other words ih =>
    rw [Expr.matches_either_iff, matches_word_iff, ih (List.cons_ne_nil _ _)]
    generalize other :: words = others
    rw [List.exists_mem_cons_iff, or_and_right, and_assoc]

theorem matches_behindWord_iff :
    behindWord.Matches text start notes stop after ↔
      Anchor.wordEdge.holds (before? text start) text[start]? = true ∧ stop = start ∧
        after = notes := by
  rw [behindWord, Expr.matches_sequence_iff]
  constructor
  · rintro ⟨middle, between, edge, done⟩
    obtain ⟨holds, rfl, rfl⟩ := Expr.matches_anchor_iff.mp edge
    exact ⟨holds, Expr.matches_empty_iff.mp done⟩
  · rintro ⟨holds, rfl, rfl⟩
    exact ⟨stop, after, .anchor holds, .empty⟩

/-- The word is read at a place with the condition on its front, and ends there as a word. -/
def FrontedAt (front : Anchor) (text : List Char) (word : String) (start : Nat) : Prop :=
  front.holds (before? text start) text[start]? = true ∧ Reads text word start ∧
    Anchor.wordEdge.holds (before? text (start + word.length)) text[start + word.length]? = true

theorem matches_wordExpr_iff :
    (Expr.group 0 (wordExpr front word)).Matches text start [] stop notes ↔
      FrontedAt front text word start ∧ stop = start + word.length ∧
        notes = [(1, stop), (0, start)] := by
  rw [Expr.matches_group_iff]
  constructor
  · rintro ⟨inner, matched, rfl⟩
    obtain ⟨middle, between, edge, later⟩ := Expr.matches_sequence_iff.mp matched
    obtain ⟨ahead, rfl, rfl⟩ := Expr.matches_anchor_iff.mp edge
    obtain ⟨reads, later⟩ := matches_literally_iff.mp later
    obtain ⟨behind, rfl, rfl⟩ := matches_behindWord_iff.mp later
    exact ⟨⟨ahead, reads, behind⟩, rfl, rfl⟩
  · rintro ⟨⟨ahead, reads, behind⟩, rfl, rfl⟩
    exact ⟨_, .sequence (.anchor ahead)
      (matches_literally_iff.mpr ⟨reads, matches_behindWord_iff.mpr ⟨behind, rfl, rfl⟩⟩), rfl⟩

theorem matches_wordsExpr_iff (nonempty : words ≠ []) :
    (Expr.group 0 (wordsExpr front words)).Matches text start [] stop notes ↔
      (∃ word ∈ words, FrontedAt front text word start ∧ stop = start + word.length) ∧
        notes = [(1, stop), (3, stop), (2, start), (0, start)] := by
  rw [Expr.matches_group_iff]
  constructor
  · rintro ⟨inner, matched, rfl⟩
    obtain ⟨middle, between, edge, later⟩ := Expr.matches_sequence_iff.mp matched
    obtain ⟨ahead, rfl, rfl⟩ := Expr.matches_anchor_iff.mp edge
    obtain ⟨ending, _, grouped, later⟩ := Expr.matches_sequence_iff.mp later
    obtain ⟨_, chosen, rfl⟩ := Expr.matches_group_iff.mp grouped
    obtain ⟨⟨word, listed, reads, rfl⟩, rfl⟩ := (matches_oneOf_iff nonempty).mp chosen
    obtain ⟨behind, rfl, rfl⟩ := matches_behindWord_iff.mp later
    exact ⟨⟨word, listed, ⟨ahead, reads, behind⟩, rfl⟩, rfl⟩
  · rintro ⟨⟨word, listed, ⟨ahead, reads, behind⟩, rfl⟩, rfl⟩
    exact ⟨_, .sequence (.anchor ahead) (.sequence
      (.group ((matches_oneOf_iff nonempty).mpr ⟨⟨word, listed, reads, rfl⟩, rfl⟩))
      (matches_behindWord_iff.mpr ⟨behind, rfl, rfl⟩)), rfl⟩

theorem frontedAt_wordEdge_iff (keyword : isKeyword word = true) :
    FrontedAt .wordEdge text word start ↔ WordAt text word start := by
  constructor
  · rintro ⟨ahead, reads, behind⟩
    exact ⟨reads, (wordEdge_before_iff reads keyword).mp ahead,
      (wordEdge_behind_iff reads keyword).mp behind⟩
  · rintro ⟨reads, before, behind⟩
    exact ⟨(wordEdge_before_iff reads keyword).mpr before, reads,
      (wordEdge_behind_iff reads keyword).mpr behind⟩

theorem frontedAt_textStart_iff (keyword : isKeyword word = true) :
    FrontedAt .textStart text word start ↔ start = 0 ∧ WordAt text word 0 := by
  constructor
  · rintro ⟨ahead, reads, behind⟩
    obtain rfl := (textStart_iff reads keyword).mp ahead
    exact ⟨rfl, reads, rfl, (wordEdge_behind_iff reads keyword).mp behind⟩
  · rintro ⟨rfl, reads, before, behind⟩
    exact ⟨rfl, reads, (wordEdge_behind_iff reads keyword).mpr behind⟩

end

/-! Texts that begin with a keyword -/

section

variable {text : String} {word : String} {words : List String}

theorem isMatch_start_word_iff (keyword : isKeyword word = true) :
    (wordExpr .textStart word).program.isMatch text = true ↔ WordAt text.toList word 0 := by
  rw [Expr.isMatch_iff]
  constructor
  · rintro ⟨start, -, stop, notes, matched⟩
    exact ((frontedAt_textStart_iff keyword).mp (matches_wordExpr_iff.mp matched).1).2
  · intro begins
    exact ⟨0, Nat.zero_le _, _, _, matches_wordExpr_iff.mpr
      ⟨(frontedAt_textStart_iff keyword).mpr ⟨rfl, begins⟩, rfl, rfl⟩⟩

theorem isMatch_start_words_iff (nonempty : words ≠ [])
    (keywords : ∀ word ∈ words, isKeyword word = true) :
    (wordsExpr .textStart words).program.isMatch text = true ↔
      ∃ word ∈ words, WordAt text.toList word 0 := by
  rw [Expr.isMatch_iff]
  constructor
  · rintro ⟨start, -, stop, notes, matched⟩
    obtain ⟨⟨word, listed, fronted, -⟩, -⟩ := (matches_wordsExpr_iff nonempty).mp matched
    exact ⟨word, listed, ((frontedAt_textStart_iff (keywords word listed)).mp fronted).2⟩
  · rintro ⟨word, listed, begins⟩
    exact ⟨0, Nat.zero_le _, _, _, (matches_wordsExpr_iff nonempty).mpr
      ⟨⟨word, listed, (frontedAt_textStart_iff (keywords word listed)).mpr ⟨rfl, begins⟩, rfl⟩,
        rfl⟩⟩

end

/-! Texts that have a keyword somewhere -/

/-- The matches of the pattern are the words of a list, where they stand as wholes. -/
structure FindsWords (expr : Expr) (words : List String) : Prop where
  keywords : ∀ word ∈ words, isKeyword word = true
  matched_iff : ∀ {text : List Char} {start stop : Nat},
    (∃ notes, (Expr.group 0 expr).Matches text start [] stop notes) ↔
      ∃ word ∈ words, WordAt text word start ∧ stop = start + word.length
  solid : ∀ text, expr.Solid text

theorem findsWords_wordExpr {word : String} (keyword : isKeyword word = true) :
    FindsWords (wordExpr .wordEdge word) [word] where
  keywords := by simpa using keyword
  matched_iff := by
    simp [matches_wordExpr_iff, frontedAt_wordEdge_iff keyword]
  solid := by
    intro text start stop notes matched
    obtain ⟨-, rfl, rfl⟩ := matches_wordExpr_iff.mp matched
    have nonempty := length_pos_of_isKeyword keyword
    exact ⟨by omega, [], by simp [matchOf?, Notes.at?]⟩

theorem findsWords_wordsExpr {words : List String} (nonempty : words ≠ [])
    (keywords : ∀ word ∈ words, isKeyword word = true) :
    FindsWords (wordsExpr .wordEdge words) words where
  keywords := keywords
  matched_iff := by
    intro text start stop
    simp only [matches_wordsExpr_iff nonempty, exists_and_left, exists_eq, and_true]
    refine exists_congr fun word => and_congr_right fun listed => ?_
    rw [frontedAt_wordEdge_iff (keywords word listed)]
  solid := by
    intro text start stop notes matched
    obtain ⟨⟨word, listed, -, rfl⟩, rfl⟩ := (matches_wordsExpr_iff nonempty).mp matched
    have nonempty := length_pos_of_isKeyword (keywords word listed)
    exact ⟨by omega, [(1, start, start + word.length)], by simp [matchOf?, Notes.at?]⟩

section

variable {expr : Expr} {words : List String}

theorem FindsWords.isMatch_iff (finds : FindsWords expr words) {text : String} :
    expr.program.isMatch text = true ↔ ∃ word ∈ words, ∃ start, WordAt text.toList word start := by
  rw [Expr.isMatch_iff]
  constructor
  · rintro ⟨start, -, stop, notes, matched⟩
    obtain ⟨word, listed, here, -⟩ := finds.matched_iff.mp ⟨notes, matched⟩
    exact ⟨word, listed, start, here⟩
  · rintro ⟨word, listed, start, here⟩
    have bound := here.reads.end_le (finds.keywords word listed)
    obtain ⟨notes, matched⟩ := finds.matched_iff.mpr ⟨word, listed, here, rfl⟩
    exact ⟨start, by omega, _, notes, matched⟩

theorem FindsWords.countable (finds : FindsWords expr words) : expr.Countable where
  solid := finds.solid
  settled := by
    intro text start stop notes start' stop' notes' here there behind inside
    obtain ⟨word, listed, first, rfl⟩ := finds.matched_iff.mp ⟨notes, here⟩
    obtain ⟨other, also, second, rfl⟩ := finds.matched_iff.mp ⟨notes', there⟩
    exact first.eq_of_overlap second (finds.keywords word listed) (finds.keywords other also)
      behind inside

end

theorem ifPattern_eq : ifPattern = (wordExpr .wordEdge "IF").program :=
  compile_of_parse (by decide +kernel)

theorem findsIf : FindsWords (wordExpr .wordEdge "IF") ["IF"] :=
  findsWords_wordExpr (by decide)

end PlcAudit.Review
