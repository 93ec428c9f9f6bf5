import Mathlib.Data.List.Infix
import PlcAudit.Text.Line

/-!
Cuts at the last occurrence of a piece of text. Whether a piece occurs is looked up part by part: an
occurrence lies on one side of a character that the piece does not have, and of a mark that it has
at its ends only.
-/

namespace PlcAudit.Text

theorem sameName_iff {left right : String} :
    sameName left right = true ↔
      left.toList.map Char.toUpper = right.toList.map Char.toUpper := by
  rw [sameName, beq_iff_eq, upper, upper, String.ofList_inj]

variable {piece text : List Char}

/-! First and last occurrences -/

theorem cutFirst?_isSome_iff (piece text : List Char) :
    (cutFirst? piece text).isSome = true ↔ piece <:+: text := by
  induction text with
  | nil => simp [cutFirst?]
  | cons c rest ih =>
    rw [cutFirst?, List.infix_cons_iff, ← ih, ← List.isPrefixOf_iff_prefix]
    split
    · simp_all
    · simp_all

theorem contains_iff_infix {text piece : String} :
    contains text piece = true ↔ piece.toList <:+: text.toList :=
  cutFirst?_isSome_iff piece.toList text.toList

/-- What is found in a text is found there whatever follows. -/
theorem cutFirst?_append {before after : List Char}
    (cut : cutFirst? piece text = some (before, after)) (more : List Char) :
    cutFirst? piece (text ++ more) = some (before, after ++ more) := by
  induction text generalizing before with
  | nil =>
    rw [cutFirst?] at cut
    split at cut
    · rename_i empty
      cases cut
      rw [List.isEmpty_iff] at empty
      cases more <;> simp [cutFirst?, empty]
    · cases cut
  | cons c rest ih =>
    rw [cutFirst?] at cut
    split at cut
    · rename_i here
      have fits := (List.isPrefixOf_iff_prefix.mp here).length_le
      have starts : piece.isPrefixOf (c :: (rest ++ more)) = true :=
        List.isPrefixOf_iff_prefix.mpr
          ((List.isPrefixOf_iff_prefix.mp here).trans (List.prefix_append (c :: rest) more))
      cases cut
      rw [List.cons_append, cutFirst?, if_pos starts, ← List.cons_append,
        List.drop_append_of_le_length fits]
    · rename_i elsewhere
      obtain ⟨⟨first, last⟩, found, same⟩ := Option.map_eq_some_iff.mp cut
      cases same
      -- The piece stands in the rest and is not longer than it, so what follows is no part of it.
      have fits : piece.length ≤ rest.length :=
        ((cutFirst?_isSome_iff piece rest).mp (by rw [found]; rfl)).length_le
      have still : ¬ piece.isPrefixOf (c :: (rest ++ more)) = true := by
        intro starts
        apply elsewhere
        rw [List.isPrefixOf_iff_prefix] at starts ⊢
        exact List.prefix_of_prefix_length_le starts (List.prefix_append (c :: rest) more)
          (Nat.le_succ_of_le fits)
      rw [List.cons_append, cutFirst?, if_neg still, ih found]
      rfl

/-- A piece at the end of a text is the first one if there is none that ends earlier. -/
theorem cutFirst?_of_last {before : List Char} (single : ¬ piece <:+: (before ++ piece).dropLast) :
    cutFirst? piece (before ++ piece) = some (before, []) := by
  induction before with
  | nil =>
    cases piece with
    | nil => rfl
    | cons c rest => simp [cutFirst?]
  | cons c before ih =>
    have nonempty : piece ≠ [] := by
      rintro rfl
      exact single (List.nil_infix)
    rw [List.cons_append, List.dropLast_cons_of_ne_nil (by simp [nonempty]),
      List.infix_cons_iff, not_or] at single
    have elsewhere : ¬ piece.isPrefixOf (c :: (before ++ piece)) = true := by
      intro starts
      refine single.1 (List.prefix_of_prefix_length_le (List.isPrefixOf_iff_prefix.mp starts)
        (List.cons_prefix_cons.mpr ⟨rfl, List.dropLast_prefix _⟩) ?_)
      have shown := List.length_pos_iff.mpr nonempty
      simp only [List.length_cons, List.length_dropLast, List.length_append]
      omega
    rw [List.cons_append, cutFirst?, if_neg elsewhere, ih single.2]
    rfl

/-- A text is cut at a piece if there is none that begins later. -/
theorem cutLast?_append (before : List Char) {after : List Char}
    (single : ¬ piece <:+: (piece ++ after).tail) :
    cutLast? piece (before ++ (piece ++ after)) = some (before, after) := by
  have last : ¬ piece.reverse <:+: (after.reverse ++ piece.reverse).dropLast := by
    rwa [← List.reverse_append, List.dropLast_reverse, List.reverse_infix]
  rw [cutLast?, List.reverse_append, List.reverse_append,
    cutFirst?_append (cutFirst?_of_last last)]
  simp

theorem cutLast?_eq_none_iff : cutLast? piece text = none ↔ ¬ piece <:+: text := by
  rw [cutLast?, Option.map_eq_none_iff, ← Option.not_isSome_iff_eq_none, cutFirst?_isSome_iff,
    List.reverse_infix]

/-! Occurrences on either side of a character -/

theorem prefix_of_prefix_append_cons {mark : Char} (foreign : mark ∉ piece)
    (before : List Char) {after : List Char} (starts : piece <+: before ++ mark :: after) :
    piece <+: before := by
  induction piece generalizing before with
  | nil => exact List.nil_prefix
  | cons c piece ih =>
    rw [List.mem_cons, not_or] at foreign
    cases before with
    | nil => exact absurd (List.cons_prefix_cons.mp starts).1.symm foreign.1
    | cons d before =>
      obtain ⟨rfl, later⟩ := List.cons_prefix_cons.mp starts
      exact List.cons_prefix_cons.mpr ⟨rfl, ih foreign.2 before later⟩

/-- An occurrence lies on one side of a character that the piece does not have. -/
theorem infix_append_foreign {mark : Char} (foreign : mark ∉ piece) (nonempty : piece ≠ [])
    {before after : List Char} (occurs : piece <:+: before ++ mark :: after) :
    piece <:+: before ∨ piece <:+: after := by
  induction before with
  | nil =>
    rcases List.infix_cons_iff.mp occurs with here | later
    · exact absurd (List.prefix_nil.mp (prefix_of_prefix_append_cons foreign [] here)) nonempty
    · exact .inr later
  | cons c before ih =>
    rcases List.infix_cons_iff.mp occurs with here | later
    · exact .inl (prefix_of_prefix_append_cons foreign (c :: before) here).isInfix
    · rcases ih later with left | right
      · exact .inl (List.infix_cons left)
      · exact .inr right

theorem prefix_append_mark {mark : Char} {word : List Char} (inner : mark ∉ word)
    {before after : List Char} (starts : word ++ [mark] <+: before ++ mark :: after) :
    word ++ [mark] <+: before ++ [mark] := by
  induction word generalizing before with
  | nil =>
    cases before with
    | nil => exact List.prefix_rfl
    | cons d before =>
      obtain ⟨rfl, -⟩ := List.cons_prefix_cons.mp starts
      exact List.cons_prefix_cons.mpr ⟨rfl, List.nil_prefix⟩
  | cons c word ih =>
    rw [List.mem_cons, not_or] at inner
    cases before with
    | nil => exact absurd (List.cons_prefix_cons.mp starts).1.symm inner.1
    | cons d before =>
      obtain ⟨rfl, later⟩ := List.cons_prefix_cons.mp starts
      exact List.cons_prefix_cons.mpr ⟨rfl, ih inner.2 later⟩

/-- An occurrence of a word between marks lies on one side of a mark. -/
theorem infix_append_mark {mark : Char} {word : List Char} (inner : mark ∉ word)
    {before after : List Char} (occurs : mark :: (word ++ [mark]) <:+: before ++ mark :: after) :
    mark :: (word ++ [mark]) <:+: before ++ [mark] ∨
      mark :: (word ++ [mark]) <:+: mark :: after := by
  induction before with
  | nil => exact .inr occurs
  | cons c before ih =>
    rcases List.infix_cons_iff.mp occurs with here | later
    · obtain ⟨rfl, behind⟩ := List.cons_prefix_cons.mp here
      exact .inl (List.cons_prefix_cons.mpr ⟨rfl, prefix_append_mark inner behind⟩).isInfix
    · rcases ih later with left | right
      · exact .inl (List.infix_cons left)
      · exact .inr right

/-! Texts without blanks at their ends -/

/-- The text neither begins nor ends with a blank. -/
structure IsTrimmed (text : List Char) : Prop where
  first : ∀ c ∈ text.head?, isBlank c = false
  last : ∀ c ∈ text.getLast?, isBlank c = false

theorem dropWhile_eq_self_of_head? {text : List Char}
    (first : ∀ c ∈ text.head?, isBlank c = false) :
    text.dropWhile isBlank = text := by
  cases text with
  | nil => rfl
  | cons c rest =>
    have shown := first c rfl
    rw [List.dropWhile_cons, if_neg (by simp [shown])]

theorem IsTrimmed.trimStart (trimmed : IsTrimmed text) : trimStart text = text :=
  dropWhile_eq_self_of_head? trimmed.first

theorem IsTrimmed.trimmed (trimmed : IsTrimmed text) : trimEnd (Text.trimStart text) = text := by
  rw [trimmed.trimStart, trimEnd, dropWhile_eq_self_of_head?, List.reverse_reverse]
  rw [List.head?_reverse]
  exact trimmed.last

end PlcAudit.Text
