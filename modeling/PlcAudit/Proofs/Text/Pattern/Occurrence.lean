import PlcAudit.Proofs.Text.Pattern.Layout

/-!
All matches of a pattern. Each listed match is one of the pattern, and since a search goes on
right behind the match before, every place where the pattern matches lies in a listed match.
-/

namespace PlcAudit.Pattern

section

variable {expr : Expr} {text : List Char} {position : Nat}

/-- A match stays inside the text it begins in. -/
theorem Expr.Matches.stop_le {start stop : Nat} {notes after : Notes}
    (matched : expr.Matches text start notes stop after) : stop ≤ max start text.length := by
  induction matched with
  | one read =>
    have inside := (List.getElem?_eq_some_iff.mp read).1
    omega
  | sequence _ _ head tail => omega
  | again _ _ once more => omega
  | preferred _ ih => exact ih
  | other _ ih => exact ih
  | group _ ih => exact ih
  | _ => exact Nat.le_max_left ..

/-- Every match of the pattern is a piece of the text, and can be read off its notes. -/
def Expr.Solid (expr : Expr) (text : List Char) : Prop :=
  ∀ start stop notes, (Expr.group 0 expr).Matches text start [] stop notes →
    start < stop ∧ ∃ groups, matchOf? notes = some { start, stop, groups }

/-- The pattern matches at the place of a match, with its groups. -/
def Match.Fits (found : Match) (expr : Expr) (text : List Char) : Prop :=
  ∃ notes, (Expr.group 0 expr).Matches text found.start [] found.stop notes ∧
    matchOf? notes = some found

theorem Expr.Solid.lt_length (solid : expr.Solid text) {place : Nat}
    (matched : expr.MatchesAt text place) : place < text.length := by
  obtain ⟨stop, notes, matched⟩ := matched
  have nonempty := (solid place stop notes matched).1
  have bound := matched.stop_le
  omega

theorem Expr.Solid.findFrom? (solid : expr.Solid text) (inside : position ≤ text.length) :
    (∃ found : Match, found.Fits expr text ∧ position ≤ found.start ∧ found.start < found.stop ∧
      (∀ earlier, position ≤ earlier → earlier < found.start → ¬ expr.MatchesAt text earlier) ∧
      expr.program.findFrom? text position = some found) ∨
    ((∀ start, position ≤ start → ¬ expr.MatchesAt text start) ∧
      expr.program.findFrom? text position = none) := by
  rcases Expr.findFrom?_leftmost expr text inside with
    ⟨start, stop, notes, behind, -, matched, least, result⟩ | ⟨nowhere, result⟩
  · obtain ⟨nonempty, groups, read⟩ := solid start stop notes matched
    exact .inl ⟨_, ⟨notes, matched, read⟩, behind, nonempty, least, result.trans read⟩
  · exact .inr ⟨fun start behind matched =>
      nowhere start behind (Nat.le_of_lt (solid.lt_length matched)) matched, result⟩

theorem Expr.Solid.fits_of_mem_from (solid : expr.Solid text) {fuel : Nat} {last : Option Nat}
    {found : Match} (member : found ∈ findAllFrom expr.program text fuel position last) :
    found.Fits expr text := by
  induction fuel generalizing position last with
  | zero => cases member
  | succ fuel ih =>
    rw [findAllFrom] at member
    by_cases outside : text.length < position
    · simp [outside] at member
    · rcases solid.findFrom? (Nat.le_of_not_lt outside) with
        ⟨first, fits, -, nonempty, -, result⟩ | ⟨-, result⟩
      · simp only [outside, if_false, result, beq_iff_eq, Nat.ne_of_lt nonempty, Bool.and_eq_true,
          false_and, List.mem_cons] at member
        rcases member with rfl | later
        · exact fits
        · exact ih later
      · simp [outside, result] at member

/-- Where the pattern matches, a search that is long enough lists a match over that place. -/
theorem Expr.Solid.exists_mem_from (solid : expr.Solid text) {fuel place : Nat}
    (enough : text.length < position + fuel) {last : Option Nat} (behind : position ≤ place)
    (matched : expr.MatchesAt text place) :
    ∃ found ∈ findAllFrom expr.program text fuel position last,
      found.start ≤ place ∧ place < found.stop := by
  have bound := solid.lt_length matched
  induction fuel generalizing position last with
  | zero => omega
  | succ fuel ih =>
    have inside : ¬ text.length < position := by omega
    rw [findAllFrom, if_neg inside]
    rcases solid.findFrom? (Nat.le_of_not_lt inside) with
      ⟨first, -, after, nonempty, least, result⟩ | ⟨nowhere, -⟩
    · have started : first.start ≤ place := by
        by_contra sooner
        exact least place behind (by omega) matched
      simp only [result, beq_iff_eq, Nat.ne_of_lt nonempty, Bool.and_eq_true, false_and, if_false]
      by_cases within : place < first.stop
      · exact ⟨first, List.mem_cons_self, started, within⟩
      · obtain ⟨found, member, covers⟩ :=
          @ih first.stop (by omega) (some first.stop) (by omega)
        exact ⟨found, List.mem_cons_of_mem _ member, covers⟩
    · exact absurd matched (nowhere place behind)

theorem Expr.Solid.fits_of_mem (solid : expr.Solid text) {found : Match}
    (member : found ∈ expr.program.findAll text) : found.Fits expr text :=
  solid.fits_of_mem_from member

theorem Expr.Solid.exists_mem (solid : expr.Solid text) {place : Nat}
    (matched : expr.MatchesAt text place) :
    ∃ found ∈ expr.program.findAll text, found.start ≤ place ∧ place < found.stop :=
  solid.exists_mem_from (by omega) (Nat.zero_le _) matched

end

end PlcAudit.Pattern
