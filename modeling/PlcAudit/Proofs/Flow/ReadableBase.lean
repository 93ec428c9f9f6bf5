import PlcAudit.Flow.Analysis
import PlcAudit.Proofs.Code.Legible

/-!
Bases of folded literals. The constants and conditions of a unit are folded, and where the unit can
be read, none of their literals names a base that cannot be read.
-/

namespace PlcAudit.Flow

open Code

theorem blockHasBadBase_eq_false_iff (body : List (Stmt Mark)) :
    blockHasBadBase body = false ↔ ∀ stmt ∈ body, stmtHasBadBase stmt = false := by
  induction body with
  | nil => simp [blockHasBadBase]
  | cons stmt rest ih => simp [blockHasBadBase, ih]

theorem clausesHaveBadBase_eq_false_iff (clauses : List (Clause Mark)) :
    clausesHaveBadBase clauses = false ↔ ∀ clause ∈ clauses,
      hasBadBase clause.condition = false ∧ ∀ stmt ∈ clause.body, stmtHasBadBase stmt = false := by
  induction clauses with
  | nil => simp [clausesHaveBadBase]
  | cons clause rest ih =>
    obtain ⟨span, condition, body⟩ := clause
    rw [clausesHaveBadBase, List.forall_mem_cons, Bool.or_eq_false_iff, Bool.or_eq_false_iff, ih,
      blockHasBadBase_eq_false_iff]
    rfl

theorem elementsHaveBadBase_eq_false_iff (elements : List (Element Mark)) :
    elementsHaveBadBase elements = false ↔
      ∀ element ∈ elements, ∀ stmt ∈ element.body, stmtHasBadBase stmt = false := by
  induction elements with
  | nil => simp [elementsHaveBadBase]
  | cons element rest ih =>
    obtain ⟨labels, body⟩ := element
    rw [elementsHaveBadBase, List.forall_mem_cons, Bool.or_eq_false_iff, ih,
      blockHasBadBase_eq_false_iff]
    rfl

theorem elseHasBadBase_eq_false_iff (body : Option (List (Stmt Mark))) :
    elseHasBadBase body = false ↔ ∀ stmt ∈ body.getD [], stmtHasBadBase stmt = false := by
  cases body with
  | none => simp [elseHasBadBase]
  | some body => simp [elseHasBadBase, blockHasBadBase_eq_false_iff]

/-- Folding in a statement or an expression meets a base that cannot be read. -/
def nodeHasBadBase : Node → Bool
  | .expr expr => hasBadBase expr
  | .stmt stmt => stmtHasBadBase stmt
  | _ => false

theorem hasBadBase_of_parts {expr : Expr Mark} (legible : (Node.expr expr).Legible)
    (parts : ∀ part ∈ expr.children, nodeHasBadBase part = false) : hasBadBase expr = false := by
  cases expr with
  | binary tag op left right =>
    simpa [Expr.children, nodeHasBadBase, hasBadBase] using parts
  | unary tag op operand => simpa [Expr.children, nodeHasBadBase, hasBadBase] using parts
  | literal tag kind text =>
    cases kind
    case integer => exact (legible rfl).hasBadBase
    all_goals rfl
  | «variable» => rfl
  | call => rfl

theorem stmtHasBadBase_of_parts {stmt : Stmt Mark}
    (parts : ∀ part ∈ stmt.children, nodeHasBadBase part = false) :
    stmtHasBadBase stmt = false := by
  cases stmt with
  | cond tag condition thenBody elsifs elseBody =>
    simp only [Stmt.children, List.forall_mem_append, List.forall_mem_cons, List.forall_mem_map,
      List.forall_mem_flatMap] at parts
    simp only [stmtHasBadBase, Bool.or_eq_false_iff, blockHasBadBase_eq_false_iff,
      clausesHaveBadBase_eq_false_iff, elseHasBadBase_eq_false_iff]
    exact parts
  | select tag selector elements elseBody =>
    simp only [Stmt.children, List.forall_mem_append, List.forall_mem_cons, List.forall_mem_map,
      List.forall_mem_flatMap] at parts
    obtain ⟨⟨_, elementParts⟩, elseParts⟩ := parts
    simp only [stmtHasBadBase, Bool.or_eq_false_iff, elementsHaveBadBase_eq_false_iff,
      elseHasBadBase_eq_false_iff]
    exact ⟨fun element member => (elementParts element member).2, elseParts⟩
  | forLoop tag counter start stop step body =>
    simp only [Stmt.children, List.forall_mem_append, List.forall_mem_map] at parts
    exact (blockHasBadBase_eq_false_iff body).mpr parts.2
  | whileLoop tag condition body =>
    simp only [Stmt.children, List.forall_mem_cons, List.forall_mem_map] at parts
    rw [stmtHasBadBase, Bool.or_eq_false_iff, blockHasBadBase_eq_false_iff]
    exact parts
  | repeatLoop tag body until_ =>
    simp only [Stmt.children, List.forall_mem_append, List.forall_mem_map] at parts
    exact (blockHasBadBase_eq_false_iff body).mpr parts.1
  | assign | exit | return_ | call => rfl

theorem nodeHasBadBase_of_legible (node : Node) (legible : node.LegibleInside) :
    nodeHasBadBase node = false := by
  induction node using Node.parts_induction with
  | step node parts =>
    have inner : ∀ part ∈ node.children, nodeHasBadBase part = false :=
      fun part isPart => parts part isPart (legible.part isPart)
    cases node with
    | expr expr => exact hasBadBase_of_parts (legible _ List.mem_cons_self) inner
    | stmt stmt => exact stmtHasBadBase_of_parts inner
    | pou | globals | block | decl | target | dataType | struct | enum => rfl

theorem pouHasBadBase_of_legible {pou : Pou Mark} (legible : (Node.pou pou).LegibleInside) :
    pouHasBadBase pou = false := by
  rw [pouHasBadBase, Bool.or_eq_false_iff, List.any_eq_false, blockHasBadBase_eq_false_iff]
  constructor
  · rintro ⟨block, decl⟩ member
    have inside := legible.decl member
    cases initial : decl.initial with
    | none => simp [initial]
    | some value =>
      have isPart : Node.expr value ∈ (Node.decl decl).children := by
        simp [Node.children, initial]
      have sound : hasBadBase value = false := nodeHasBadBase_of_legible _ (inside.part isPart)
      simp [initial, sound]
  · intro stmt member
    exact nodeHasBadBase_of_legible (.stmt stmt)
      (legible.part (List.mem_append_right _ (List.mem_map_of_mem member)))

end PlcAudit.Flow
