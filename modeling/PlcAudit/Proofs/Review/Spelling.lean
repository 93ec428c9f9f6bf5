import PlcAudit.Proofs.Review.Marker
import PlcAudit.Proofs.Text.Cut

/-!
How words are spelled. A pattern that is blind to letter case reads a word in the spellings that
count as the same name; only words with a `k` or an `s` have further spellings, outside ASCII.
-/

namespace PlcAudit.Review

open Pattern

/-! Characters -/

/-- The letters with variants outside ASCII, and these variants. -/
def specialLetters : List Char := ['k', 'K', '\u212A', 's', 'S', '\u017F']

/-- The letter has its variants in ASCII, if it has any. -/
def isPlain (c : Char) : Bool := !specialLetters.contains c

section

variable {c d : Char}

theorem mem_caseVariants_iff (plain : isPlain c = true) :
    c ∈ caseVariants d ↔ d.toUpper = c.toUpper := by
  have upperC := toNat_toUpper c
  have upperD := toNat_toUpper d
  have lowerD := toNat_toLower d
  simp only [isPlain, Bool.not_eq_true', ← Bool.not_eq_true, List.contains_iff_mem, specialLetters,
    List.mem_cons, List.not_mem_nil, or_false, not_or, ← Char.toNat_inj] at plain
  simp only [Char.reduceToNat] at plain
  unfold caseVariants
  split_ifs with kelvin long lower upper
  · simp only [Bool.or_eq_true, beq_iff_eq, ← Char.toNat_inj, Char.reduceToNat] at kelvin
    simp only [List.mem_cons, List.not_mem_nil, or_false, ← Char.toNat_inj, Char.reduceToNat]
    grind
  · simp only [Bool.or_eq_true, beq_iff_eq, ← Char.toNat_inj, Char.reduceToNat] at long
    simp only [List.mem_cons, List.not_mem_nil, or_false, ← Char.toNat_inj, Char.reduceToNat]
    grind
  · rw [isLower_iff] at lower
    simp only [List.mem_cons, List.not_mem_nil, or_false, ← Char.toNat_inj]
    grind
  · rw [isUpper_iff] at upper
    simp only [List.mem_cons, List.not_mem_nil, or_false, ← Char.toNat_inj]
    grind
  · rw [isLower_iff] at lower
    rw [isUpper_iff] at upper
    simp only [List.mem_cons, List.not_mem_nil, or_false, ← Char.toNat_inj]
    grind

theorem letter_contains_iff (plain : isPlain c = true) :
    (letter c).contains d = true ↔ d.toUpper = c.toUpper := by
  rw [← mem_caseVariants_iff plain]
  simp only [letter, CharSet.contains, if_true, Item.holds, List.any_cons, List.any_nil,
    Bool.or_false, bne_iff_ne, ne_eq, Bool.not_eq_false, List.any_eq_true, Bool.and_eq_true,
    decide_eq_true_eq]
  constructor
  · rintro ⟨variant, member, first, last⟩
    exact Char.le_antisymm last first ▸ member
  · intro member
    exact ⟨c, member, Char.le_refl c, Char.le_refl c⟩

theorem isWord_of_mem_caseVariants (member : d ∈ caseVariants c) :
    Text.isWord d = Text.isWord c := by
  unfold caseVariants at member
  split_ifs at member with kelvin long lower upper
  · have words : ∀ letter ∈ ['k', 'K', '\u212A'], Text.isWord letter = true :=
      List.all_eq_true.mp (by decide +kernel)
    rw [words d member, words c (by simpa [or_assoc] using kelvin)]
  · have words : ∀ letter ∈ ['s', 'S', '\u017F'], Text.isWord letter = true :=
      List.all_eq_true.mp (by decide +kernel)
    rw [words d member, words c (by simpa [or_assoc] using long)]
  · simp only [List.mem_cons, List.not_mem_nil, or_false] at member
    rcases member with rfl | rfl
    · rfl
    · exact isWord_toUpper c
  · simp only [List.mem_cons, List.not_mem_nil, or_false] at member
    rcases member with rfl | rfl
    · rfl
    · have alpha : c.isAlpha = true := isAlpha_iff.mpr (.inl (isUpper_iff.mp upper))
      rw [isWord_of_isAlpha alpha, isWord_of_isAlpha (isAlpha_toLower upper)]
  · rw [List.mem_singleton.mp member]

end

/-- The word characters, in a pattern that is blind to letter case. -/
def wordChars : CharSet := { items := [.word], anyCase := true }

@[simp] theorem wordChars_contains (c : Char) : wordChars.contains c = Text.isWord c := by
  rw [Bool.eq_iff_iff]
  simp only [wordChars, CharSet.contains, if_true, Item.holds, List.any_cons, List.any_nil,
    Bool.or_false, bne_iff_ne, ne_eq, Bool.not_eq_false, List.any_eq_true]
  constructor
  · rintro ⟨variant, member, word⟩
    rwa [← isWord_of_mem_caseVariants member]
  · intro word
    exact ⟨c, mem_caseVariants_self c, word⟩

@[simp] theorem blankChars_contains (c : Char) : blankChars.contains c = Text.isBlank c := by
  rw [Bool.eq_iff_iff]
  constructor
  · exact isBlank_of_blankChars
  · intro blank
    simp only [blankChars, CharSet.contains, if_true, Item.holds, List.any_cons, List.any_nil,
      Bool.or_false, bne_iff_ne, ne_eq, Bool.not_eq_false, List.any_eq_true]
    exact ⟨c, mem_caseVariants_self c, blank⟩

/-! Pieces of a text -/

/-- A piece of text is a spelling of the word. -/
def Spells (piece : List Char) (word : String) : Prop :=
  Text.sameName (String.ofList piece) word = true

instance (piece : List Char) (word : String) : Decidable (Spells piece word) :=
  inferInstanceAs (Decidable (_ = true))

theorem spells_iff {piece : List Char} {word : String} :
    Spells piece word ↔ piece.map Char.toUpper = word.toList.map Char.toUpper := by
  rw [Spells, Text.sameName_iff, String.toList_ofList]

theorem Spells.length_eq {piece : List Char} {word : String} (spells : Spells piece word) :
    piece.length = word.length := by
  have same := congrArg List.length (spells_iff.mp spells)
  rwa [List.length_map, List.length_map, String.length_toList] at same

section

variable {text : List Char} {start : Nat} {word : String}

theorem Reads.of_spells (plain : ∀ c ∈ word.toList, isPlain c = true) {piece rest : List Char}
    (here : text.drop start = piece ++ rest) (spells : Spells piece word) :
    Reads text word start := by
  intro index c found
  have read := congrArg (·[index]?) (spells_iff.mp spells)
  simp only [List.getElem?_map, found, Option.map_some, Option.map_eq_some_iff] at read
  obtain ⟨d, inside, same⟩ := read
  refine ⟨d, ?_, (letter_contains_iff (plain c (List.mem_of_getElem? found))).mpr same⟩
  rw [← List.getElem?_drop, here,
    List.getElem?_append_left (List.getElem?_eq_some_iff.mp inside).1, inside]

theorem Reads.spells (plain : ∀ c ∈ word.toList, isPlain c = true)
    (reads : Reads text word start) : Spells ((text.drop start).take word.length) word := by
  rw [spells_iff]
  apply List.ext_getElem?
  intro index
  rw [List.getElem?_map, List.getElem?_map, List.getElem?_take, List.getElem?_drop]
  cases found : word.toList[index]? with
  | none =>
    have beyond := List.getElem?_eq_none_iff.mp found
    rw [String.length_toList] at beyond
    rw [if_neg (Nat.not_lt.mpr beyond)]
  | some c =>
    have within := (List.getElem?_eq_some_iff.mp found).1
    rw [String.length_toList] at within
    obtain ⟨d, read, inside⟩ := reads index c found
    have same := (letter_contains_iff (plain c (List.mem_of_getElem? found))).mp inside
    rw [if_pos within, read, Option.map_some, Option.map_some, same]

theorem drop_behind {piece rest : List Char} (here : text.drop start = piece ++ rest) :
    text.drop (start + piece.length) = rest := by
  rw [← List.drop_drop, here, List.drop_left]

end

/-! Runs of characters -/

/-- One character of a set at least. -/
def someOf (set : CharSet) : Expr := .sequence (.one set) (.repeated true (.one set))

section

variable {text : List Char} {start stop : Nat} {notes after : Notes} {set : CharSet}

theorem spans_cons_iff :
    start < stop ∧ set.Spans text start stop ↔
      (∃ c, text[start]? = some c ∧ set.contains c = true) ∧ set.Spans text (start + 1) stop := by
  constructor
  · rintro ⟨nonempty, ordered, inside⟩
    exact ⟨inside start (Nat.le_refl _) nonempty, nonempty, fun place behind before =>
      inside place (by omega) before⟩
  · rintro ⟨here, ordered, inside⟩
    refine ⟨ordered, by omega, fun place behind before => ?_⟩
    rcases Nat.eq_or_lt_of_le behind with rfl | later
    · exact here
    · exact inside place later before

theorem matches_someOf_iff :
    (someOf set).Matches text start notes stop after ↔
      (start < stop ∧ set.Spans text start stop) ∧ after = notes := by
  rw [spans_cons_iff, someOf, Expr.matches_sequence_iff]
  constructor
  · rintro ⟨middle, between, one, others⟩
    obtain ⟨here, rfl, rfl⟩ := Expr.matches_one_iff.mp one
    obtain ⟨later, rfl⟩ := Expr.matches_run_iff.mp others
    exact ⟨⟨here, later⟩, rfl⟩
  · rintro ⟨⟨here, later⟩, rfl⟩
    exact ⟨start + 1, after, Expr.matches_one_iff.mpr ⟨here, rfl, rfl⟩,
      Expr.matches_run_iff.mpr ⟨later, rfl⟩⟩

/-- A run of characters is a piece of the text. -/
theorem exists_piece_of_spans (spans : set.Spans text start stop) :
    ∃ piece, text.drop start = piece ++ text.drop stop ∧ start + piece.length = stop ∧
      ∀ c ∈ piece, set.contains c = true := by
  obtain ⟨length, rfl⟩ := Nat.exists_eq_add_of_le spans.1
  have inside := mem_of_spans spans
  rw [Nat.add_sub_cancel_left] at inside
  refine ⟨(text.drop start).take length, ?_, ?_, inside⟩
  · rw [← List.drop_drop, List.take_append_drop]
  · cases length with
    | zero => simp
    | succ length =>
      obtain ⟨c, read, -⟩ := spans.2 (start + length) (by omega) (by omega)
      have bound := (List.getElem?_eq_some_iff.mp read).1
      rw [List.length_take, List.length_drop]
      omega

end

end PlcAudit.Review
