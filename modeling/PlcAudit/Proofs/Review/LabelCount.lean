import PlcAudit.Proofs.Review.Keyword

/-!
How often labels of selections stand in a text. A label is a number at the start of a line with a
colon behind it. Blanks around the number may be line feeds, so a label is counted where its colon
stands, and whether one ends there depends on all that stands above.
-/

namespace PlcAudit.Review

open Pattern

/-- There is nothing but blanks. -/
def Blank (text : List Char) : Prop :=
  ∀ c ∈ text, Text.isBlank c = true

instance (text : List Char) : Decidable (Blank text) :=
  decidable_of_iff (text.all Text.isBlank = true) List.all_eq_true

/-- The text is a number between blanks. -/
def IsNumber (text : List Char) : Prop :=
  ∃ front digits back, text = front ++ (digits ++ back) ∧ Blank front ∧ digits ≠ [] ∧
    (∀ c ∈ digits, Text.isDecimal c = true) ∧ Blank back

/-- The text ends with a number that starts a line. A colon would make it a label. -/
def NumberEnds (text : List Char) : Prop :=
  ∃ above number, text = above ++ number ∧ above.getLast?.all (· == '\n') = true ∧ IsNumber number

section

variable {c : Char} {text front back left right : List Char}

theorem Blank.append (first : Blank front) (second : Blank back) : Blank (front ++ back) := by
  intro c member
  rcases List.mem_append.mp member with before | behind
  · exact first c before
  · exact second c behind

theorem blank_append_iff : Blank (front ++ back) ↔ Blank front ∧ Blank back :=
  List.forall_mem_append

theorem blank_lineFeed_iff : Blank ('\n' :: text) ↔ Blank text := by
  rw [Blank, List.forall_mem_cons, and_iff_right (by decide)]
  rfl

/-- Every range of digits lies between two blanks. -/
theorem digitRanges_between : ∀ range ∈ Text.digitRanges,
    0x3000 < range.1 ∨ 0xA0 < range.1 ∧ range.2 < 0x1680 ∨ 0x1680 < range.1 ∧ range.2 < 0x2000 := by
  decide +kernel

theorem not_isDecimal_of_isBlank (blank : Text.isBlank c = true) : Text.isDecimal c = false := by
  have code : ∃ range ∈ Text.blankRanges, range.1 ≤ c.toNat ∧ c.toNat ≤ range.2 := by
    simpa [Text.isBlank, Text.inRanges] using blank
  simp only [Text.blankRanges, List.mem_cons, List.not_mem_nil, or_false, exists_eq_or_imp,
    exists_eq_left] at code
  rw [Bool.eq_false_iff]
  intro digit
  rw [Text.isDecimal] at digit
  split at digit
  · rw [isDigit_iff] at digit
    omega
  · obtain ⟨range, member, inside⟩ := List.any_eq_true.mp digit
    simp only [Bool.and_eq_true, decide_eq_true_eq] at inside
    have between := digitRanges_between range member
    omega

theorem IsNumber.not_blank (number : IsNumber text) : ¬ Blank text := by
  obtain ⟨front, digits, back, rfl, -, nonempty, decimal, -⟩ := number
  intro blank
  obtain ⟨c, member⟩ := List.exists_mem_of_ne_nil digits nonempty
  have digit := decimal c member
  rw [not_isDecimal_of_isBlank (blank c (by simp [member]))] at digit
  cases digit

theorem IsNumber.only (number : IsNumber text) :
    ∀ c ∈ text, Text.isBlank c = true ∨ Text.isDecimal c = true := by
  obtain ⟨front, digits, back, rfl, before, -, decimal, behind⟩ := number
  intro c member
  rcases List.mem_append.mp member with first | later
  · exact .inl (before c first)
  · rcases List.mem_append.mp later with second | last
    · exact .inr (decimal c second)
    · exact .inl (behind c last)

theorem IsNumber.no_colon (number : IsNumber text) : ':' ∉ text :=
  fun member => absurd (number.only _ member) (by decide)

/-- Where a text is taken apart, the line feed is in the back part or in the front part. -/
theorem lineFeed_split (same : left ++ '\n' :: right = front ++ back) :
    (∃ gap, left = front ++ gap ∧ back = gap ++ '\n' :: right) ∨
      ∃ gap, front = left ++ '\n' :: gap ∧ right = gap ++ back := by
  rcases List.append_eq_append_iff.mp same with ⟨gap, rfl, rest⟩ | ⟨gap, rfl, rfl⟩
  · cases gap with
    | nil => exact .inl ⟨[], by simp, rest.symm⟩
    | cons first gap =>
      obtain ⟨rfl, rfl⟩ := List.cons_eq_cons.mp rest
      exact .inr ⟨gap, rfl, rfl⟩
  · exact .inl ⟨gap, rfl, rfl⟩

/-- A number does not reach beyond a line feed, but the blanks around it do. -/
theorem isNumber_cut : IsNumber (left ++ '\n' :: right) ↔
    Blank left ∧ IsNumber right ∨ IsNumber left ∧ Blank right := by
  have noDigit {digits : List Char} (decimal : ∀ c ∈ digits, Text.isDecimal c = true) :
      '\n' ∉ digits := fun member => absurd (decimal _ member) (by decide)
  constructor
  · rintro ⟨front, digits, back, same, before, nonempty, decimal, behind⟩
    rcases lineFeed_split same with ⟨gap, rfl, rest⟩ | ⟨gap, rfl, rfl⟩
    · rcases lineFeed_split rest.symm with ⟨part, rfl, rfl⟩ | ⟨part, rfl, -⟩
      · obtain ⟨blank, after⟩ := blank_append_iff.mp behind
        exact .inr ⟨⟨front, digits, part, rfl, before, nonempty, decimal, blank⟩,
          blank_lineFeed_iff.mp after⟩
      · exact absurd (by simp) (noDigit decimal)
    · obtain ⟨blank, inner⟩ := blank_append_iff.mp before
      exact .inl ⟨blank, gap, digits, back, rfl, blank_lineFeed_iff.mp inner, nonempty, decimal,
        behind⟩
  · rintro (⟨blank, front, digits, back, rfl, before, nonempty, decimal, behind⟩ |
      ⟨⟨front, digits, back, rfl, before, nonempty, decimal, behind⟩, blank⟩)
    · exact ⟨left ++ '\n' :: front, digits, back, by simp,
        blank.append (blank_lineFeed_iff.mpr before), nonempty, decimal, behind⟩
    · exact ⟨front, digits, back ++ '\n' :: right, by simp, before, nonempty, decimal,
        behind.append (blank_lineFeed_iff.mpr blank)⟩

theorem lineStart_append :
    (front ++ '\n' :: back).getLast?.all (· == '\n') = back.getLast?.all (· == '\n') := by
  rw [List.getLast?_append, List.getLast?_cons]
  cases back.getLast? with
  | none => rfl
  | some c => rfl

theorem numberEnds_cut : NumberEnds (left ++ '\n' :: right) ↔
    NumberEnds right ∨ Blank right ∧ NumberEnds left := by
  constructor
  · rintro ⟨above, number, same, lineStart, isNumber⟩
    rcases lineFeed_split same with ⟨gap, rfl, rfl⟩ | ⟨gap, rfl, rfl⟩
    · rcases isNumber_cut.mp isNumber with ⟨-, number⟩ | ⟨number, blank⟩
      · exact .inl ⟨[], right, rfl, rfl, number⟩
      · exact .inr ⟨blank, above, gap, rfl, lineStart, number⟩
    · rw [lineStart_append] at lineStart
      exact .inl ⟨gap, number, rfl, lineStart, isNumber⟩
  · rintro (⟨above, number, rfl, lineStart, isNumber⟩ |
      ⟨blank, above, number, rfl, lineStart, isNumber⟩)
    · exact ⟨left ++ '\n' :: above, number, by simp, lineStart_append.trans lineStart, isNumber⟩
    · exact ⟨above, number ++ '\n' :: right, by simp, lineStart,
        isNumber_cut.mpr (.inr ⟨isNumber, blank⟩)⟩

end

/-! The pattern of labels -/

def spaces : CharSet := { items := [.blank] }

def digits : CharSet := { items := [.decimal] }

def colon : CharSet := { items := [.range ':' ':'] }

def labelExpr : Expr :=
  .sequence (.anchor .lineStart) (.sequence (.repeated true (.one spaces))
    (.sequence (someOf digits) (.sequence (.repeated true (.one spaces))
      (.sequence (.one colon) .empty))))

theorem caseLabelPattern_eq : caseLabelPattern = labelExpr.program :=
  compile_of_parse (by decide +kernel)

@[simp] theorem spaces_contains (c : Char) : spaces.contains c = Text.isBlank c := by
  simp [spaces, CharSet.contains, Item.holds]

@[simp] theorem digits_contains (c : Char) : digits.contains c = Text.isDecimal c := by
  simp [digits, CharSet.contains, Item.holds]

theorem colon_contains_iff {c : Char} : colon.contains c = true ↔ c = ':' := by
  simp only [colon, CharSet.contains, Item.holds, Bool.false_eq_true, if_false, List.any_cons,
    List.any_nil, Bool.or_false, bne_iff_ne, ne_eq, Bool.not_eq_false, Bool.and_eq_true,
    decide_eq_true_eq]
  constructor
  · rintro ⟨first, last⟩
    exact Char.le_antisymm last first
  · rintro rfl
    exact ⟨Char.le_refl _, Char.le_refl _⟩

section

variable {text : List Char} {start stop : Nat} {notes : Notes}

/-- A label of a selection, with what stands above and below it. -/
structure LabelAt (text : List Char) (start stop : Nat) (above number below : List Char) :
    Prop where
  text_eq : text = above ++ (number ++ ':' :: below)
  start_eq : start = above.length
  stop_eq : stop = above.length + number.length + 1
  lineStart : above.getLast?.all (· == '\n') = true
  isNumber : IsNumber number

theorem before?_eq (inside : start ≤ text.length) :
    before? text start = (text.take start).getLast? := by
  cases start with
  | zero => rw [List.take_zero]; rfl
  | succ start =>
    rw [before?, if_neg (Nat.succ_ne_zero start), List.getLast?_eq_getElem?, List.length_take,
      Nat.min_eq_left inside, List.getElem?_take_of_lt (by omega)]

theorem spans_of_blank {piece rest : List Char} (here : text.drop start = piece ++ rest)
    (blank : Blank piece) : spaces.Spans text start (start + piece.length) :=
  spans_of_drop piece here fun c member => by rw [spaces_contains, blank c member]

theorem matches_labelExpr_iff :
    (Expr.group 0 labelExpr).Matches text start [] stop notes ↔
      (∃ above number below, LabelAt text start stop above number below) ∧
        notes = [(1, stop), (0, start)] := by
  rw [Expr.matches_group_iff]
  constructor
  · rintro ⟨inner, matched, rfl⟩
    obtain ⟨begun, _, edge, matched⟩ := Expr.matches_sequence_iff.mp matched
    obtain ⟨lineStart, rfl, rfl⟩ := Expr.matches_anchor_iff.mp edge
    obtain ⟨first, _, before, matched⟩ := Expr.matches_sequence_iff.mp matched
    obtain ⟨front, rfl⟩ := Expr.matches_run_iff.mp before
    obtain ⟨last, _, number, matched⟩ := Expr.matches_sequence_iff.mp matched
    obtain ⟨⟨nonempty, inside⟩, rfl⟩ := matches_someOf_iff.mp number
    obtain ⟨place, _, behind, matched⟩ := Expr.matches_sequence_iff.mp matched
    obtain ⟨back, rfl⟩ := Expr.matches_run_iff.mp behind
    obtain ⟨_, _, mark, done⟩ := Expr.matches_sequence_iff.mp matched
    obtain ⟨⟨c, read, isColon⟩, rfl, rfl⟩ := Expr.matches_one_iff.mp mark
    obtain ⟨rfl, rfl⟩ := Expr.matches_empty_iff.mp done
    obtain rfl := colon_contains_iff.mp isColon
    obtain ⟨bound, colon_eq⟩ := List.getElem?_eq_some_iff.mp read
    obtain ⟨blanks, here, begins, blank⟩ := exists_piece_of_spans front
    obtain ⟨digits, later, ends, decimal⟩ := exists_piece_of_spans inside
    obtain ⟨gap, last, reaches, blank'⟩ := exists_piece_of_spans back
    have above : (text.take begun).length = begun := by
      rw [List.length_take]
      omega
    have number : text.drop begun = blanks ++ (digits ++ gap) ++ ':' :: text.drop (place + 1) := by
      rw [here, later, last, List.drop_eq_getElem_cons bound, colon_eq, List.append_assoc,
        List.append_assoc]
    refine ⟨⟨text.take begun, blanks ++ (digits ++ gap), text.drop (place + 1), ?_⟩, rfl⟩
    refine ⟨by rw [← number, List.take_append_drop], above.symm, ?_, ?_, ?_⟩
    · rw [above, List.length_append, List.length_append]
      omega
    · rwa [← before?_eq (by omega)]
    · refine ⟨blanks, digits, gap, rfl, by simpa [Blank] using blank, ?_,
        by simpa using decimal, by simpa [Blank] using blank'⟩
      exact List.ne_nil_of_length_pos (by omega)
  · rintro ⟨⟨above, number, below, label⟩, rfl⟩
    obtain ⟨text_eq, rfl, rfl, lineStart, front, inside, back, rfl, before, nonempty, decimal,
      behind⟩ := label
    have here : text.drop above.length = front ++ (inside ++ (back ++ ':' :: below)) := by
      rw [text_eq, List.drop_left, List.append_assoc, List.append_assoc]
    have later := drop_behind here
    have last := drop_behind later
    have mark : text[above.length + front.length + inside.length + back.length]? = some ':' := by
      rw [← List.head?_drop, drop_behind last, List.head?_cons]
    have length : above.length + (front ++ (inside ++ back)).length =
        above.length + front.length + inside.length + back.length := by
      rw [List.length_append, List.length_append]
      omega
    have edge : Anchor.lineStart.holds (before? text above.length) text[above.length]? = true := by
      rw [before?_eq (by simp [text_eq]), text_eq, List.take_left]
      exact lineStart
    have digit : digits.Spans text (above.length + front.length) _ :=
      spans_of_drop inside later fun c member => by rw [digits_contains, decimal c member]
    rw [length]
    exact ⟨_, .sequence (.anchor edge) (.sequence
      (Expr.matches_run_iff.mpr ⟨spans_of_blank here before, rfl⟩) (.sequence
        (matches_someOf_iff.mpr
          ⟨⟨Nat.lt_add_of_pos_right (List.length_pos_iff.mpr nonempty), digit⟩, rfl⟩)
        (.sequence (Expr.matches_run_iff.mpr ⟨spans_of_blank last behind, rfl⟩)
          (.sequence (.one mark (by decide)) .empty)))), rfl⟩

/-- A label ends behind the first colon from its start on. -/
theorem LabelAt.first_colon {above number below : List Char}
    (label : LabelAt text start stop above number below) :
    start < stop ∧ text[stop - 1]? = some ':' ∧
      ∀ place, start ≤ place → text[place]? = some ':' → stop ≤ place + 1 := by
  obtain ⟨rfl, rfl, rfl, -, isNumber⟩ := label
  refine ⟨by omega, ?_, fun place behind read => ?_⟩
  · rw [Nat.add_sub_cancel, List.getElem?_append_right (Nat.le_add_right ..),
      Nat.add_sub_cancel_left, List.getElem?_append_right (Nat.le_refl _), Nat.sub_self]
    rfl
  · by_contra early
    rw [List.getElem?_append_right behind, List.getElem?_append_left (by omega)] at read
    exact isNumber.no_colon (List.mem_of_getElem? read)

theorem labelExpr_countable : labelExpr.Countable where
  solid := by
    intro text start stop notes matched
    obtain ⟨⟨above, number, below, label⟩, rfl⟩ := matches_labelExpr_iff.mp matched
    exact ⟨label.first_colon.1, [], by simp [matchOf?, Notes.at?]⟩
  settled := by
    intro text start stop notes start' stop' notes' here there behind inside
    obtain ⟨⟨_, _, _, label⟩, -⟩ := matches_labelExpr_iff.mp here
    obtain ⟨⟨_, _, _, label'⟩, -⟩ := matches_labelExpr_iff.mp there
    obtain ⟨-, read, first⟩ := label.first_colon
    obtain ⟨nonempty, read', first'⟩ := label'.first_colon
    have := first (stop' - 1) (by omega) read'
    have := first' (stop - 1) (by omega) read
    omega

/-- A label ends right behind the colon. -/
theorem labelExpr_endsAt_iff : labelExpr.EndsAt text stop ↔
    ∃ front below, text = front ++ ':' :: below ∧ stop = front.length + 1 ∧ NumberEnds front := by
  constructor
  · rintro ⟨start, notes, matched⟩
    obtain ⟨⟨above, number, below, label⟩, -⟩ := matches_labelExpr_iff.mp matched
    refine ⟨above ++ number, below, ?_, ?_, above, number, rfl, label.lineStart, label.isNumber⟩
    · rw [label.text_eq, List.append_assoc]
    · rw [label.stop_eq, List.length_append]
  · rintro ⟨_, below, rfl, rfl, above, number, rfl, lineStart, isNumber⟩
    refine ⟨above.length, _, matches_labelExpr_iff.mpr ⟨⟨above, number, below, ?_⟩, rfl⟩⟩
    exact ⟨List.append_assoc .., rfl, by rw [List.length_append], lineStart, isNumber⟩

end

/-! Labels line by line -/

section

variable {left right blank : List Char} {stop : Nat}

/-- Labels in the first lines of a text. -/
theorem labelExpr_endsAt_front (early : stop < left.length + 1) :
    labelExpr.EndsAt (left ++ '\n' :: right) stop ↔ labelExpr.EndsAt left stop := by
  rw [labelExpr_endsAt_iff, labelExpr_endsAt_iff]
  constructor
  · rintro ⟨front, below, same, rfl, ends⟩
    rcases lineFeed_split same with ⟨gap, rfl, rest⟩ | ⟨gap, rfl, -⟩
    · cases gap with
      | nil => cases rest
      | cons first gap =>
        obtain ⟨rfl, -⟩ := List.cons_eq_cons.mp rest
        exact ⟨front, gap, rfl, rfl, ends⟩
    · rw [List.length_append] at early
      omega
  · rintro ⟨front, below, rfl, rfl, ends⟩
    exact ⟨front, below ++ '\n' :: right, by simp, rfl, ends⟩

/-- Labels behind the first lines of a text. Their numbers may stand in these lines. -/
theorem labelExpr_endsAt_behind :
    labelExpr.EndsAt (left ++ '\n' :: right) (left.length + 1 + stop) ↔
      ∃ front below, right = front ++ ':' :: below ∧ stop = front.length + 1 ∧
        (NumberEnds front ∨ Blank front ∧ NumberEnds left) := by
  rw [labelExpr_endsAt_iff]
  constructor
  · rintro ⟨front, below, same, place, ends⟩
    rcases lineFeed_split same with ⟨gap, rfl, rest⟩ | ⟨gap, rfl, rfl⟩
    · cases gap with
      | nil => cases rest
      | cons first gap =>
        rw [List.length_append, List.length_cons] at place
        omega
    · rw [List.length_append, List.length_cons] at place
      exact ⟨gap, below, rfl, by omega, numberEnds_cut.mp ends⟩
  · rintro ⟨front, below, rfl, rfl, ends⟩
    refine ⟨left ++ '\n' :: front, below, by simp, ?_, numberEnds_cut.mpr ends⟩
    rw [List.length_append, List.length_cons]
    omega

/-- Without a number above or a colon below, the labels of both parts of a text are counted
apart. -/
theorem length_labels_cut (apart : ¬ NumberEnds left ∨ ':' ∉ right) :
    (labelExpr.program.findAll (left ++ '\n' :: right)).length =
      (labelExpr.program.findAll left).length + (labelExpr.program.findAll right).length := by
  refine labelExpr_countable.length_findAll_parts (Nat.lt_succ_self left.length)
    (fun stop => labelExpr_endsAt_front) fun stop => ?_
  rw [labelExpr_endsAt_behind, labelExpr_endsAt_iff]
  refine exists_congr fun front => exists_congr fun below => and_congr_right fun same =>
    and_congr_right fun _ => or_iff_left fun ⟨_, above⟩ => ?_
  rcases apart with unnumbered | uncoloned
  · exact unnumbered above
  · exact uncoloned (by simp [same])

theorem Blank.no_colon (isBlank : Blank blank) : ':' ∉ blank :=
  fun member => absurd (isBlank _ member) (by decide)

theorem numberEnds_blank (isBlank : Blank blank) :
    NumberEnds (left ++ '\n' :: blank) ↔ NumberEnds left := by
  rw [numberEnds_cut, and_iff_right isBlank, or_iff_right]
  rintro ⟨above, number, rfl, -, isNumber⟩
  exact isNumber.not_blank (blank_append_iff.mp isBlank).2

/-- A blank line does not count. -/
theorem length_labels_blank (isBlank : Blank blank) :
    (labelExpr.program.findAll (left ++ '\n' :: (blank ++ '\n' :: right))).length =
      (labelExpr.program.findAll (left ++ '\n' :: right)).length := by
  refine @Expr.Countable.length_findAll_apart _ _ (left.length + 1) labelExpr_countable _
    (blank.length + 1) (fun stop early => ?_) (fun stop within => ?_) fun stop => ?_
  · rw [labelExpr_endsAt_front early, labelExpr_endsAt_front early]
  · rw [labelExpr_endsAt_behind]
    rintro ⟨front, below, same, rfl, -⟩
    rcases lineFeed_split same with ⟨gap, rfl, rest⟩ | ⟨gap, rfl, -⟩
    · cases gap with
      | nil => cases rest
      | cons first gap =>
        obtain ⟨rfl, -⟩ := List.cons_eq_cons.mp rest
        exact isBlank.no_colon (by simp)
    · rw [List.length_append] at within
      omega
  · have place : left.length + 1 + (blank.length + 1) + stop =
        (left ++ '\n' :: blank).length + 1 + stop := by
      rw [List.length_append, List.length_cons]
      omega
    have text : left ++ '\n' :: (blank ++ '\n' :: right) =
        left ++ '\n' :: blank ++ '\n' :: right := by simp
    rw [place, text, labelExpr_endsAt_behind, labelExpr_endsAt_behind, numberEnds_blank isBlank]

end

end PlcAudit.Review
