import PlcAudit.Proofs.Data.Order
import PlcAudit.Proofs.Flow.Region

/-!
Regions in source order. Where blocks are in line order and every span encloses the statements
inside, the lines of a region enclose all statements of its body.
-/

namespace PlcAudit.Flow

open Code

/-- Both ends of a span lie inside another. -/
def Encloses (outer inner : Span) : Prop :=
  outer.startLine ≤ inner.startLine ∧ inner.startLine ≤ outer.endLine ∧
    inner.endLine ≤ outer.endLine

def InLineOrder (body : List (Stmt Mark)) : Prop :=
  body.Pairwise fun first second => first.line ≤ second.line

/-- The blocks that stand directly in a statement. -/
def innerBlocks : Stmt Mark → List (List (Stmt Mark))
  | .cond _ _ thenBody elsifs elseBody => thenBody :: elsifs.map Clause.body ++ elseBody.toList
  | .select _ _ elements elseBody => elements.map Element.body ++ elseBody.toList
  | .forLoop _ _ _ _ _ body | .whileLoop _ _ body | .repeatLoop _ body _ => [body]
  | .assign .. | .exit _ | .return_ _ | .call .. => []

def elsifClauses : Stmt Mark → List (Clause Mark)
  | .cond _ _ _ elsifs _ => elsifs
  | _ => []

/-- A statement whose blocks are in line order and inside its span; the block of an ELSIF clause is
inside the span of the clause, too. -/
structure LaidOut (stmt : Stmt Mark) : Prop where
  ordered : ∀ body ∈ innerBlocks stmt, InLineOrder body
  encloses : ∀ body ∈ innerBlocks stmt, ∀ inner ∈ body, Encloses stmt.tag.span inner.tag.span
  clauses : ∀ clause ∈ elsifClauses stmt, ∀ inner ∈ clause.body,
    Encloses clause.span inner.tag.span

/-- A unit in source order: its body is in line order, and every statement is laid out. -/
def PouLaidOut (pou : Pou Mark) : Prop :=
  InLineOrder pou.body ∧ ∀ stmt ∈ blockParts pou.body, LaidOut stmt

instance (outer inner : Span) : Decidable (Encloses outer inner) :=
  inferInstanceAs (Decidable (_ ∧ _ ∧ _))

instance (body : List (Stmt Mark)) : Decidable (InLineOrder body) :=
  inferInstanceAs (Decidable (List.Pairwise _ body))

instance (stmt : Stmt Mark) : Decidable (LaidOut stmt) :=
  decidable_of_iff
    ((∀ body ∈ innerBlocks stmt, InLineOrder body) ∧
      (∀ body ∈ innerBlocks stmt, ∀ inner ∈ body, Encloses stmt.tag.span inner.tag.span) ∧
      ∀ clause ∈ elsifClauses stmt, ∀ inner ∈ clause.body,
        Encloses clause.span inner.tag.span)
    ⟨fun ⟨ordered, encloses, clauses⟩ => ⟨ordered, encloses, clauses⟩,
      fun laidOut => ⟨laidOut.ordered, laidOut.encloses, laidOut.clauses⟩⟩

instance (pou : Pou Mark) : Decidable (PouLaidOut pou) :=
  inferInstanceAs (Decidable (_ ∧ _))

/-- The lines of a statement enclose the line of another. -/
def Spans (stmt part : Stmt Mark) : Prop :=
  stmt.line ≤ part.line ∧ part.line ≤ max stmt.tag.span.endLine stmt.line

theorem Spans.refl (stmt : Stmt Mark) : Spans stmt stmt := ⟨Nat.le_refl _, Nat.le_max_right ..⟩

/-- What lies in the lines of an enclosed statement lies in the lines around it. -/
theorem Spans.enclosed {stmt inner part : Stmt Mark}
    (encloses : Encloses stmt.tag.span inner.tag.span) (spans : Spans inner part) :
    Spans stmt part := by
  obtain ⟨starts, opens, ends⟩ := encloses
  obtain ⟨above, below⟩ := spans
  refine ⟨Nat.le_trans starts above, Nat.le_trans below ?_⟩
  exact Nat.le_trans (Nat.max_le.mpr ⟨ends, opens⟩) (Nat.le_max_left ..)

section Parts

variable {stmt part : Stmt Mark} {body : List (Stmt Mark)}

theorem LaidOut.spans (laidOut : LaidOut stmt) (member : body ∈ innerBlocks stmt)
    (inside : ∃ inner ∈ body, Spans inner part) : Spans stmt part := by
  obtain ⟨inner, present, spans⟩ := inside
  exact spans.enclosed (laidOut.encloses body member inner present)

theorem LaidOut.spans_loop (laidOut : LaidOut stmt) (only : innerBlocks stmt = [body])
    (inside : ∀ part ∈ blockParts body, ∃ inner ∈ body, Spans inner part) :
    ∀ part ∈ stmt :: blockParts body, Spans stmt part := by
  refine List.forall_mem_cons.mpr ⟨.refl stmt, fun part member => ?_⟩
  exact laidOut.spans (only ▸ List.mem_singleton_self body) (inside part member)

end Parts

mutual

/-- The lines of a statement enclose all statements inside it. -/
theorem stmt_spans : ∀ stmt, (∀ part ∈ stmtParts stmt, LaidOut part) →
    ∀ part ∈ stmtParts stmt, Spans stmt part
  | .cond tag condition thenBody elsifs elseBody, laidOut => by
    simp only [stmtParts, List.forall_mem_cons, List.forall_mem_append] at laidOut ⊢
    obtain ⟨here, ⟨inThen, inClauses⟩, inElse⟩ := laidOut
    refine ⟨.refl _, ⟨fun part member => ?_, fun part member => ?_⟩, fun part member => ?_⟩
    · exact here.spans (by simp [innerBlocks]) (block_spans thenBody inThen part member)
    · obtain ⟨clause, present, inside⟩ := clauses_span elsifs inClauses part member
      refine here.spans ?_ inside
      simp only [innerBlocks, List.cons_append, List.mem_cons, List.mem_append, List.mem_map]
      exact .inr (.inl ⟨clause, present, rfl⟩)
    · obtain ⟨body, present, inside⟩ := else_spans elseBody inElse part member
      exact here.spans (by simp [innerBlocks, present]) inside
  | .select tag selector elements elseBody, laidOut => by
    simp only [stmtParts, List.forall_mem_cons, List.forall_mem_append] at laidOut ⊢
    obtain ⟨here, inElements, inElse⟩ := laidOut
    refine ⟨.refl _, fun part member => ?_, fun part member => ?_⟩
    · obtain ⟨element, present, inside⟩ := elements_span elements inElements part member
      refine here.spans ?_ inside
      simp only [innerBlocks, List.mem_append, List.mem_map]
      exact .inl ⟨element, present, rfl⟩
    · obtain ⟨body, present, inside⟩ := else_spans elseBody inElse part member
      exact here.spans (by simp [innerBlocks, present]) inside
  | .forLoop _ _ _ _ _ body, laidOut => by
    simp only [stmtParts, List.forall_mem_cons] at laidOut
    rw [stmtParts]
    exact laidOut.1.spans_loop rfl (block_spans body laidOut.2)
  | .whileLoop _ _ body, laidOut => by
    simp only [stmtParts, List.forall_mem_cons] at laidOut
    rw [stmtParts]
    exact laidOut.1.spans_loop rfl (block_spans body laidOut.2)
  | .repeatLoop _ body _, laidOut => by
    simp only [stmtParts, List.forall_mem_cons] at laidOut
    rw [stmtParts]
    exact laidOut.1.spans_loop rfl (block_spans body laidOut.2)
  | .assign .., _ | .exit _, _ | .return_ _, _ | .call .., _ => by
    simp only [stmtParts, List.forall_mem_singleton]
    exact .refl _

theorem block_spans : ∀ body, (∀ part ∈ blockParts body, LaidOut part) →
    ∀ part ∈ blockParts body, ∃ stmt ∈ body, Spans stmt part
  | [], _ => by simp [blockParts]
  | stmt :: rest, laidOut => by
    simp only [blockParts, List.forall_mem_append] at laidOut ⊢
    refine ⟨fun part member => ?_, fun part member => ?_⟩
    · exact ⟨stmt, List.mem_cons_self .., stmt_spans stmt laidOut.1 part member⟩
    · obtain ⟨other, present, spans⟩ := block_spans rest laidOut.2 part member
      exact ⟨other, List.mem_cons_of_mem _ present, spans⟩

theorem clauses_span : ∀ elsifs, (∀ part ∈ clauseParts elsifs, LaidOut part) →
    ∀ part ∈ clauseParts elsifs, ∃ clause ∈ elsifs, ∃ stmt ∈ clause.body, Spans stmt part
  | [], _ => by simp [clauseParts]
  | .mk span condition body :: rest, laidOut => by
    simp only [clauseParts, List.forall_mem_append] at laidOut ⊢
    refine ⟨fun part member => ?_, fun part member => ?_⟩
    · exact ⟨_, List.mem_cons_self .., block_spans body laidOut.1 part member⟩
    · obtain ⟨clause, present, inside⟩ := clauses_span rest laidOut.2 part member
      exact ⟨clause, List.mem_cons_of_mem _ present, inside⟩

theorem elements_span : ∀ elements, (∀ part ∈ elementParts elements, LaidOut part) →
    ∀ part ∈ elementParts elements, ∃ element ∈ elements, ∃ stmt ∈ element.body, Spans stmt part
  | [], _ => by simp [elementParts]
  | .mk labels body :: rest, laidOut => by
    simp only [elementParts, List.forall_mem_append] at laidOut ⊢
    refine ⟨fun part member => ?_, fun part member => ?_⟩
    · exact ⟨_, List.mem_cons_self .., block_spans body laidOut.1 part member⟩
    · obtain ⟨element, present, inside⟩ := elements_span rest laidOut.2 part member
      exact ⟨element, List.mem_cons_of_mem _ present, inside⟩

theorem else_spans : ∀ elseBody, (∀ part ∈ elseParts elseBody, LaidOut part) →
    ∀ part ∈ elseParts elseBody, ∃ body ∈ elseBody.toList, ∃ stmt ∈ body, Spans stmt part
  | none, _ => by simp [elseParts]
  | some body, laidOut => fun part member =>
    ⟨body, List.mem_singleton_self _, block_spans body laidOut part member⟩

end

/-- All statements of a region lie between its lines. -/
def Region.Placed (region : Region) : Prop :=
  ∀ part ∈ blockParts region.body, region.startLine ≤ part.line ∧ part.line ≤ region.endLine

section Placement

variable {body : List (Stmt Mark)} {part : Stmt Mark}

/-- No statement of a block begins behind its last line. -/
theorem line_le_lastLine (laidOut : ∀ part ∈ blockParts body, LaidOut part)
    (member : part ∈ blockParts body) : part.line ≤ lastLine body := by
  obtain ⟨stmt, present, spans⟩ := block_spans body laidOut part member
  exact Nat.le_trans spans.2 ((le_foldl_max _ 0).2 _ (List.mem_map_of_mem present))

/-- No statement of a block in line order begins above its first line. -/
theorem firstLine_le_line (ordered : InLineOrder body)
    (laidOut : ∀ part ∈ blockParts body, LaidOut part) (otherwise : Nat)
    (member : part ∈ blockParts body) : firstLine body otherwise ≤ part.line := by
  obtain ⟨stmt, present, spans⟩ := block_spans body laidOut part member
  refine Nat.le_trans ?_ spans.1
  cases body with
  | nil => cases present
  | cons first rest =>
    rcases List.mem_cons.mp present with same | later
    · exact same ▸ Nat.le_refl _
    · exact (List.pairwise_cons.mp ordered).1 stmt later

theorem placed_regionOf {startLine last : Nat} (nested : Bool) (reason : Option DeadKind)
    (laidOut : ∀ part ∈ blockParts body, LaidOut part)
    (starts : ∀ part ∈ blockParts body, startLine ≤ part.line) (ends : lastLine body ≤ last) :
    ∀ region ∈ regionOf nested reason startLine last body, region.Placed := by
  intro region member part inside
  obtain ⟨kind, _, same⟩ := List.mem_map.mp member
  subst same
  refine ⟨starts part inside, Nat.le_trans (line_le_lastLine laidOut inside) ?_⟩
  exact Nat.le_trans ends (Nat.le_max_left ..)

/-- A body whose statements all begin behind the line of the statement around it. -/
theorem starts_of_encloses {stmt : Stmt Mark} (here : LaidOut stmt)
    (member : body ∈ innerBlocks stmt) (laidOut : ∀ part ∈ blockParts body, LaidOut part) :
    ∀ part ∈ blockParts body, stmt.line ≤ part.line := fun part inside =>
  (here.spans member (block_spans body laidOut part inside)).1

end Placement

mutual

/-- The regions of code in source order are placed around their statements. -/
theorem stmt_placed (constants : Constants) (nested : Bool) :
    ∀ stmt, (∀ part ∈ stmtParts stmt, LaidOut part) →
      ∀ region ∈ stmtRegions constants nested stmt, region.Placed
  | .cond tag condition thenBody elsifs elseBody, laidOut => by
    simp only [stmtParts, List.forall_mem_cons, List.forall_mem_append] at laidOut
    obtain ⟨here, ⟨inThen, inClauses⟩, inElse⟩ := laidOut
    simp only [stmtRegions, List.forall_mem_append]
    refine ⟨⟨⟨?_, ?_⟩, ?_⟩, ?_⟩
    · exact placed_regionOf _ _ inThen
        (starts_of_encloses here (by simp [innerBlocks]) inThen) (Nat.le_refl _)
    · exact block_placed constants _ thenBody (here.ordered _ (by simp [innerBlocks])) inThen
    · exact clauses_placed constants nested _ elsifs
        (fun clause member => here.ordered _ (by
          simp only [innerBlocks, List.cons_append, List.mem_cons, List.mem_append, List.mem_map]
          exact .inr (.inl ⟨clause, member, rfl⟩)))
        here.clauses inClauses
    · exact else_placed constants nested _ _ elseBody
        (fun body member => here.ordered _ (by simp [innerBlocks, member])) inElse
  | .select tag selector elements elseBody, laidOut => by
    simp only [stmtParts, List.forall_mem_cons, List.forall_mem_append] at laidOut
    obtain ⟨here, inElements, inElse⟩ := laidOut
    simp only [stmtRegions, List.forall_mem_append]
    refine ⟨?_, ?_⟩
    · exact elements_placed constants nested elements
        (fun element member => here.ordered _ (by
          simp only [innerBlocks, List.mem_append, List.mem_map]
          exact .inl ⟨element, member, rfl⟩))
        inElements
    · exact else_placed constants nested _ _ elseBody
        (fun body member => here.ordered _ (by simp [innerBlocks, member])) inElse
  | .forLoop _ _ _ _ _ body, laidOut => by
    simp only [stmtParts, List.forall_mem_cons] at laidOut
    exact block_placed constants nested body
      (laidOut.1.ordered _ (List.mem_singleton_self _)) laidOut.2
  | .whileLoop _ _ body, laidOut => by
    simp only [stmtParts, List.forall_mem_cons] at laidOut
    have ordered := laidOut.1.ordered _ (List.mem_singleton_self _)
    simp only [stmtRegions, List.forall_mem_append]
    refine ⟨?_, block_placed constants _ body ordered laidOut.2⟩
    exact placed_regionOf _ _ laidOut.2
      (fun part => firstLine_le_line ordered laidOut.2 _) (Nat.le_max_left ..)
  | .repeatLoop _ body _, laidOut => by
    simp only [stmtParts, List.forall_mem_cons] at laidOut
    exact block_placed constants nested body
      (laidOut.1.ordered _ (List.mem_singleton_self _)) laidOut.2
  | .assign .., _ | .exit _, _ | .return_ _, _ | .call .., _ => by simp [stmtRegions]

theorem block_placed (constants : Constants) (nested : Bool) :
    ∀ body, InLineOrder body → (∀ part ∈ blockParts body, LaidOut part) →
      ∀ region ∈ blockRegions constants nested body, region.Placed
  | [], _, _ => by simp [blockRegions]
  | stmt :: rest, ordered, laidOut => by
    simp only [blockParts, List.forall_mem_append] at laidOut
    have later : InLineOrder rest := (List.pairwise_cons.mp ordered).2
    rw [blockRegions, List.forall_mem_append]
    refine ⟨stmt_placed constants nested stmt laidOut.1, ?_⟩
    split
    · exact block_placed constants nested rest later laidOut.2
    · rw [List.forall_mem_append]
      refine ⟨?_, buried_placed constants rest laidOut.2⟩
      exact placed_regionOf _ _ laidOut.2
        (fun part => firstLine_le_line later laidOut.2 _) (Nat.le_refl _)

theorem buried_placed (constants : Constants) :
    ∀ body, (∀ part ∈ blockParts body, LaidOut part) →
      ∀ region ∈ buriedRegions constants body, region.Placed
  | [], _ => by simp [buriedRegions]
  | stmt :: rest, laidOut => by
    simp only [blockParts, List.forall_mem_append] at laidOut
    rw [buriedRegions, List.forall_mem_append]
    exact ⟨stmt_placed constants true stmt laidOut.1, buried_placed constants rest laidOut.2⟩

theorem clauses_placed (constants : Constants) (nested decided : Bool) :
    ∀ elsifs, (∀ clause ∈ elsifs, InLineOrder clause.body) →
      (∀ clause ∈ elsifs, ∀ inner ∈ clause.body, Encloses clause.span inner.tag.span) →
      (∀ part ∈ clauseParts elsifs, LaidOut part) →
      ∀ region ∈ clauseRegions constants nested decided elsifs, region.Placed
  | [], _, _, _ => by simp [clauseRegions]
  | .mk span condition body :: rest, ordered, encloses, laidOut => by
    simp only [List.forall_mem_cons] at ordered encloses
    simp only [clauseParts, List.forall_mem_append] at laidOut
    simp only [clauseRegions, List.forall_mem_append]
    refine ⟨⟨?_, block_placed constants _ body ordered.1 laidOut.1⟩,
      clauses_placed constants nested _ rest ordered.2 encloses.2 laidOut.2⟩
    refine placed_regionOf _ _ laidOut.1 (fun part member => ?_) (Nat.le_refl _)
    obtain ⟨inner, present, spans⟩ := block_spans body laidOut.1 part member
    exact Nat.le_trans (encloses.1 inner present).1 spans.1

theorem elements_placed (constants : Constants) (nested : Bool) :
    ∀ elements, (∀ element ∈ elements, InLineOrder element.body) →
      (∀ part ∈ elementParts elements, LaidOut part) →
      ∀ region ∈ elementRegions constants nested elements, region.Placed
  | [], _, _ => by simp [elementRegions]
  | .mk labels body :: rest, ordered, laidOut => by
    simp only [List.forall_mem_cons] at ordered
    simp only [elementParts, List.forall_mem_append] at laidOut
    simp only [elementRegions, List.forall_mem_append]
    exact ⟨block_placed constants nested body ordered.1 laidOut.1,
      elements_placed constants nested rest ordered.2 laidOut.2⟩

theorem else_placed (constants : Constants) (nested decided : Bool) (line : Nat) :
    ∀ elseBody, (∀ body ∈ elseBody.toList, InLineOrder body) →
      (∀ part ∈ elseParts elseBody, LaidOut part) →
      ∀ region ∈ elseRegions constants nested decided line elseBody, region.Placed
  | none, _, _ => by simp [elseRegions]
  | some body, ordered, laidOut => by
    have inOrder := ordered body (List.mem_singleton_self _)
    simp only [elseRegions, List.forall_mem_append]
    refine ⟨?_, block_placed constants _ body inOrder laidOut⟩
    exact placed_regionOf _ _ laidOut
      (fun part => firstLine_le_line inOrder laidOut _) (Nat.le_refl _)

end

/-- The regions of a unit in source order are placed around their statements. -/
theorem outerRegions_placed {pou : Pou Mark} (laidOut : PouLaidOut pou) :
    ∀ region ∈ outerRegions pou, region.Placed := fun region member =>
  block_placed _ false pou.body laidOut.1 laidOut.2 region (List.mem_filter.mp member).1

end PlcAudit.Flow
