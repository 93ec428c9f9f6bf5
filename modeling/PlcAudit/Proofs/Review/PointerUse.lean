import PlcAudit.Proofs.Review.Spelling
import PlcAudit.Proofs.Text.Pattern.Occurrence
import PlcAudit.Review.Rule.Access

/-!
Uses of pointers. A pointer is used where a caret stands behind its name. All uses are found, since
a search goes on behind a caret and so never begins inside a name; of the uses of one pointer, in
whatever letter case, the first is kept.
-/

namespace PlcAudit.Review

open Pattern

/-- A caret stands right behind the whole name. -/
structure Dereferenced (code name : String) : Prop where
  nonempty : name ≠ ""
  word : ∀ c ∈ name.toList, Text.isWord c = true
  used : ∃ before after, code.toList = before ++ (name.toList ++ '^' :: after) ∧
    before.getLast?.any Text.isWord = false

/-! The pattern of a use -/

/-- The word characters, in a pattern that minds letter case. -/
def nameChars : CharSet := { items := [.word] }

def caret : CharSet := { items := [.range '^' '^'] }

/-- The pattern of a use, part by part. -/
def dereferenceExpr : Expr :=
  .sequence (.group 1 (.sequence (someOf nameChars) .empty)) (.sequence (.one caret) .empty)

theorem dereferencePattern_eq : dereferencePattern = dereferenceExpr.program :=
  compile_of_parse (by decide +kernel)

theorem nameChars_contains (c : Char) : nameChars.contains c = Text.isWord c := by
  simp [nameChars, CharSet.contains, Item.holds]

theorem caret_contains_iff (c : Char) : caret.contains c = true ↔ c = '^' := by
  simp only [caret, CharSet.contains, Item.holds, List.any_cons, List.any_nil, Bool.or_false,
    Bool.false_eq_true, if_false, bne_iff_ne, ne_eq, Bool.not_eq_false, Bool.and_eq_true,
    decide_eq_true_eq]
  constructor
  · rintro ⟨first, last⟩
    exact Char.le_antisymm last first
  · rintro rfl
    exact ⟨Char.le_refl _, Char.le_refl _⟩

/-- A name stands in front of a caret, from a place to the caret's. -/
structure DereferenceAt (text : List Char) (start last : Nat) : Prop where
  nonempty : start < last
  name : nameChars.Spans text start last
  caret : text[last]? = some '^'

section

variable {text : List Char} {start stop last : Nat} {notes : Notes}

theorem matches_dereference_iff :
    (Expr.group 0 dereferenceExpr).Matches text start [] stop notes ↔
      ∃ last, DereferenceAt text start last ∧ stop = last + 1 ∧
        notes = [(1, last + 1), (3, last), (2, start), (0, start)] := by
  constructor
  · intro matched
    obtain ⟨_, body, rfl⟩ := Expr.matches_group_iff.mp matched
    obtain ⟨last, _, grouped, ending⟩ := Expr.matches_sequence_iff.mp body
    obtain ⟨_, inner, rfl⟩ := Expr.matches_group_iff.mp grouped
    obtain ⟨_, _, letters, done⟩ := Expr.matches_sequence_iff.mp inner
    obtain ⟨rfl, rfl⟩ := Expr.matches_empty_iff.mp done
    obtain ⟨⟨nonempty, name⟩, rfl⟩ := matches_someOf_iff.mp letters
    obtain ⟨_, _, one, done⟩ := Expr.matches_sequence_iff.mp ending
    obtain ⟨rfl, rfl⟩ := Expr.matches_empty_iff.mp done
    obtain ⟨⟨c, read, inside⟩, rfl, rfl⟩ := Expr.matches_one_iff.mp one
    obtain rfl := (caret_contains_iff c).mp inside
    exact ⟨last, ⟨nonempty, name, read⟩, rfl, rfl⟩
  · rintro ⟨last, ⟨nonempty, name, read⟩, rfl, rfl⟩
    exact .group (.sequence
      (.group (.sequence (matches_someOf_iff.mpr ⟨⟨nonempty, name⟩, rfl⟩) .empty))
      (.sequence (.one read ((caret_contains_iff _).mpr rfl)) .empty))

theorem dereferenceExpr_solid (text : List Char) : dereferenceExpr.Solid text := by
  intro start stop notes matched
  obtain ⟨last, found, rfl, rfl⟩ := matches_dereference_iff.mp matched
  have nonempty := found.nonempty
  exact ⟨by omega, [(1, start, last)], by simp [matchOf?, Notes.at?]⟩

/-- What a listed use is: a name in front of a caret, with the name as its group. -/
theorem exists_dereferenceAt {found : Match} (member : found ∈ dereferencePattern.findAll text) :
    ∃ last, DereferenceAt text found.start last ∧ found.stop = last + 1 ∧
      found.group? text 1 = some (slice text found.start last) := by
  rw [dereferencePattern_eq] at member
  obtain ⟨notes, matched, read⟩ := (dereferenceExpr_solid text).fits_of_mem member
  obtain ⟨last, here, stopped, rfl⟩ := matches_dereference_iff.mp matched
  refine ⟨last, here, stopped, ?_⟩
  have groups : found.groups = [(1, found.start, last)] := by
    have same := congrArg (Option.map Match.groups) read
    simpa [matchOf?, Notes.at?] using same.symm
  simp [Match.group?, groups]

/-- A whole name in front of a caret is listed as a use. -/
theorem exists_mem_dereferences (here : DereferenceAt text start last)
    (whole : (before? text start).any Text.isWord = false) :
    ∃ found ∈ dereferencePattern.findAll text,
      found.group? text 1 = some (slice text start last) := by
  have matched : dereferenceExpr.MatchesAt text start :=
    ⟨last + 1, _, matches_dereference_iff.mpr ⟨last, here, rfl, rfl⟩⟩
  obtain ⟨found, member, started, ended⟩ := (dereferenceExpr_solid text).exists_mem matched
  rw [← dereferencePattern_eq] at member
  obtain ⟨other, there, stopped, group⟩ := exists_dereferenceAt member
  have apart : nameChars.contains '^' = false := by decide
  -- A use that began further left would make the name longer.
  have same : found.start = start := by
    by_contra different
    obtain ⟨c, read, inside⟩ := there.name.2 (start - 1) (by omega) (by omega)
    rw [before?, if_neg (by omega), read, Option.any_some, ← nameChars_contains, inside] at whole
    cases whole
  rw [same] at there group
  obtain rfl : other = last := by
    apply Nat.le_antisymm
    · exact stop_le_of_spans there.name here.name.1 here.caret apart
    · exact stop_le_of_spans here.name there.name.1 there.caret apart
  exact ⟨found, member, group⟩

end

/-! The pointers of a code -/

/-- The uses of pointers in a code: the position, the text and the name of each. -/
def pointerUses (code : List Char) : List (Nat × String × String) :=
  (dereferencePattern.findAll code).filterMap fun found => do
    return (found.start, found.text code, ← found.group? code 1)

theorem isWord_of_mem_pointerUses {code : List Char} {use : Nat × String × String}
    (member : use ∈ pointerUses code) : ∀ c ∈ use.2.2.toList, Text.isWord c = true := by
  obtain ⟨found, listed, made⟩ := List.mem_filterMap.mp member
  obtain ⟨last, here, -, group⟩ := exists_dereferenceAt listed
  rw [group] at made
  obtain rfl := Option.some.inj made
  intro c inside
  rw [slice, String.toList_ofList] at inside
  rw [← nameChars_contains]
  exact mem_of_spans here.name c inside

theorem Dereferenced.exists_use {code name : String} (used : Dereferenced code name) :
    ∃ use ∈ pointerUses code.toList, use.2.2 = name := by
  obtain ⟨before, after, shape, whole⟩ := used.used
  have here : code.toList.drop before.length = name.toList ++ '^' :: after := by
    rw [shape, List.drop_left]
  have length : 0 < name.toList.length :=
    List.length_pos_iff.mpr (mt String.toList_eq_nil_iff.mp used.nonempty)
  have stands : DereferenceAt code.toList before.length (before.length + name.toList.length) := by
    refine ⟨by omega, spans_of_drop _ here fun c inside => ?_, ?_⟩
    · rw [nameChars_contains, used.word c inside]
    · rw [← Nat.add_zero (before.length + name.toList.length), ← List.getElem?_drop,
        drop_behind here]
      rfl
  have ahead : before? code.toList before.length = before.getLast? := by
    rw [List.getLast?_eq_getElem?, before?, shape]
    split
    · simp_all
    · exact List.getElem?_append_left (by omega)
  obtain ⟨found, listed, group⟩ := exists_mem_dereferences stands (ahead ▸ whole)
  have named : slice code.toList before.length (before.length + name.toList.length) = name := by
    rw [slice, here, Nat.add_sub_cancel_left, List.take_left, String.ofList_toList]
  refine ⟨(found.start, found.text code.toList, name), List.mem_filterMap.mpr ?_, rfl⟩
  exact ⟨found, listed, by rw [group, named]; rfl⟩

/-- A use with a name not met before is kept. -/
def keepNew (kept : List (Nat × String × String)) (use : Nat × String × String) :
    List (Nat × String × String) :=
  if kept.any fun other => Text.sameName other.2.2 use.2.2 then kept else kept ++ [use]

theorem dereferences_eq (code : List Char) :
    dereferences code = (pointerUses code).foldl keepNew [] := rfl

/-- The use is one of the pointer. -/
def usesPointer (name : String) (use : Nat × String × String) : Bool :=
  Text.sameName use.2.2 name

/-- Of the uses so far one is kept, if there is one of the pointer, and none otherwise. -/
def KeepsOne (name : String) (uses kept : List (Nat × String × String)) : Prop :=
  kept.countP (usesPointer name) = if uses.any (usesPointer name) then 1 else 0

section

variable {name : String} {uses kept rest : List (Nat × String × String)}

theorem KeepsOne.step (keeps : KeepsOne name uses kept) (use : Nat × String × String) :
    KeepsOne name (uses ++ [use]) (keepNew kept use) := by
  by_cases same : usesPointer name use = true
  · have alike : (kept.any fun other => Text.sameName other.2.2 use.2.2) =
        kept.any (usesPointer name) := by
      have spelled : Text.upper use.2.2 = Text.upper name := by
        simpa [usesPointer, Text.sameName] using same
      simp only [Text.sameName, spelled]
      rfl
    rw [KeepsOne, keepNew, alike]
    rw [KeepsOne] at keeps
    cases met : uses.any (usesPointer name) with
    | true =>
      have present : kept.any (usesPointer name) = true := by
        rw [List.any_eq_true, ← List.countP_pos_iff, keeps, met]
        decide
      simp [present, keeps, met]
    | false =>
      have absent : kept.any (usesPointer name) = false := by
        rw [List.any_eq_false, ← List.countP_eq_zero, keeps, met]
        rfl
      simp [absent, keeps, met, same]
  · have unmet : (uses ++ [use]).any (usesPointer name) = uses.any (usesPointer name) := by
      simp [List.any_append, same]
    rw [KeepsOne, keepNew, unmet, ← keeps]
    split
    · rfl
    · simp [List.countP_append, same]

theorem KeepsOne.foldl (keeps : KeepsOne name uses kept) :
    KeepsOne name (uses ++ rest) (rest.foldl keepNew kept) := by
  induction rest generalizing uses kept with
  | nil => simpa using keeps
  | cons use rest ih =>
    rw [List.foldl_cons, ← List.singleton_append, ← List.append_assoc]
    exact ih (keeps.step use)

end

theorem dereferences_keepsOne (name : String) (code : List Char) :
    KeepsOne name (pointerUses code) (dereferences code) := by
  have start : KeepsOne name [] [] := rfl
  rw [dereferences_eq]
  exact start.foldl

theorem foldl_keepNew_subset (uses kept : List (Nat × String × String)) :
    uses.foldl keepNew kept ⊆ kept ++ uses := by
  induction uses generalizing kept with
  | nil => simp
  | cons use rest ih =>
    have step : keepNew kept use ⊆ kept ++ [use] := by
      rw [keepNew]
      split
      · exact List.subset_append_left ..
      · exact List.Subset.refl _
    rw [List.foldl_cons, ← List.singleton_append, ← List.append_assoc]
    refine List.Subset.trans (ih _) (List.append_subset.mpr ⟨?_, List.subset_append_right ..⟩)
    exact List.Subset.trans step (List.subset_append_left ..)

end PlcAudit.Review
