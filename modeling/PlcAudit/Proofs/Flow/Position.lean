import PlcAudit.Flow.Fact
import PlcAudit.Proofs.Data.Slice

/-!
Blocks and branches by position. A block is passed statement by statement, and where control stops,
what is left is cut off at the position that was reached. The branches of a conditional are numbered
from its first one on, and an ELSIF branch finds its clause one position below its number. No
position is ever out of range.
-/

namespace PlcAudit.Flow

open Code

/-- A statement behind those that were passed. -/
def Outcome.followed (reached : Outcome) (context : Context) (stmt : Stmt Mark) : Outcome :=
  let head := stmtFlow context reached.assigned stmt
  { (if head.stops then head else { assigned := head.assigned } : Outcome) with
    exits := reached.exits ++ head.exits
    facts := reached.facts ++ .statement stmt.tag.id context.info :: head.facts }

/-- What is left behind a statement where control stops. -/
def Outcome.cutOff (reached : Outcome) (context : Context) (rest : List (Stmt Mark)) : Outcome :=
  let cause := if reached.returns then "RETURN" else "EXIT"
  let dead := context.deadFact .unreachable (firstLine rest 0) (lastLine rest)
    s!"{rest.length} statement(s) after {cause} at line {reached.line}"
  let tail := blockFlow (context.only false) reached.assigned rest
  { reached with facts := reached.facts ++ dead ++ tail.facts }

/-- From a position of a body on, and from what was reached there, the block comes to an outcome. -/
inductive PassesBlock (context : Context) (body : List (Stmt Mark)) :
    Nat → Outcome → Outcome → Prop where
  | through (last : body.length ≤ position) : PassesBlock context body position reached reached
  | next (going : reached.stops = false) (read : body[position]? = some stmt)
      (later : PassesBlock context body (position + 1) (reached.followed context stmt) outcome) :
      PassesBlock context body position reached outcome
  | cut (stopped : reached.stops = true) (inside : position < body.length)
      (read : slice? position body = some rest) :
      PassesBlock context body position reached (reached.cutOff context rest)

/-- From the branch of a number on, and from the branches before it, a conditional comes to its
branches. -/
inductive PassesClauses (context : Context) (before : Names) (clauses : List (Clause Mark)) :
    Nat → Branches → Branches → Prop where
  | through (last : clauses.length < number) :
      PassesClauses context before clauses number branches branches
  | next (read : clauses[number - 1]? = some clause)
      (later : PassesClauses context before clauses (number + 1)
        (clauseFlow context before branches [clause]) outcome) :
      PassesClauses context before clauses number branches outcome

theorem passesBlock_from (context : Context) (body : List (Stmt Mark)) {position : Nat}
    {rest : List (Stmt Mark)} (left : body.drop position = rest) (assigned : Names)
    (exits : List Names) (facts : List Fact) :
    PassesBlock context body position { assigned, exits, facts }
      { blockFlow context assigned rest with
        exits := exits ++ (blockFlow context assigned rest).exits
        facts := facts ++ (blockFlow context assigned rest).facts } := by
  induction rest generalizing position assigned exits facts with
  | nil =>
    simp only [blockFlow, List.append_nil]
    exact .through (List.drop_eq_nil_iff.mp left)
  | cons stmt rest ih =>
    obtain ⟨read, later⟩ := read_of_drop left
    refine .next rfl read ?_
    simp only [Outcome.followed, blockFlow]
    generalize stmtFlow context assigned stmt = head
    by_cases stops : head.stops = true
    · simp only [if_pos stops]
      cases rest with
      | nil => exact .through (List.drop_eq_nil_iff.mp later)
      | cons second rest =>
        have inside : position + 1 < body.length := by
          rw [← Nat.not_le, ← List.drop_eq_nil_iff, later]
          exact List.cons_ne_nil second rest
        have cut := slice?_of_le (Nat.le_of_lt inside)
        rw [later] at cut
        have stopped : PassesBlock context body (position + 1)
            { head with
              exits := exits ++ head.exits
              facts := facts ++ .statement stmt.tag.id context.info :: head.facts } _ :=
          .cut stops inside cut
        simpa [Outcome.cutOff] using stopped
    · simp only [if_neg stops]
      have tail := ih later head.assigned (exits ++ head.exits)
        (facts ++ .statement stmt.tag.id context.info :: head.facts)
      simpa only [List.append_assoc] using tail

theorem passesClauses_from (context : Context) (before : Names) (clauses : List (Clause Mark))
    {position : Nat} {rest : List (Clause Mark)} (left : clauses.drop position = rest)
    (branches : Branches) :
    PassesClauses context before clauses (position + 1) branches
      (clauseFlow context before branches rest) := by
  induction rest generalizing position branches with
  | nil => exact .through (Nat.lt_succ_of_le (List.drop_eq_nil_iff.mp left))
  | cons clause rest ih =>
    obtain ⟨read, later⟩ := read_of_drop left
    obtain ⟨span, condition, body⟩ := clause
    exact .next read (ih later _)

end PlcAudit.Flow
