import PlcAudit.Proofs.Flow.Path

/-!
What holds of every fact that the structural pass notes. A property that observed accesses,
statements and dead regions have, each in code that runs or in code that does not, is passed on
from each piece of code to the code around it.
-/

namespace PlcAudit.Flow

open Code

/-- A property of facts noted where code can run or cannot, which the pass keeps everywhere. -/
structure Kept (holds : Bool → Fact → Prop) : Prop where
  read : ∀ reachable name line exposed, (exposed = true → reachable = true) →
    holds reachable (.read name line exposed)
  write : ∀ reachable name line, holds reachable (.write name line)
  call : ∀ reachable name line, holds reachable (.call name line)
  statement : ∀ id info, holds info.reachable (.statement id info)
  dead : ∀ kind startLine endLine description, kind ≠ .unusedFunction →
    holds true (.dead kind startLine endLine description)
  /-- Code that never runs may lie in code that does. -/
  around : ∀ fact, holds false fact → holds true fact

namespace Kept

variable {holds : Bool → Fact → Prop} {context : Context} {branches : Branches}

theorem observed (kept : Kept holds) {reachable : Bool} {assigned : Names}
    {accesses : List Access} :
    ∀ fact ∈ (observe reachable assigned accesses).1, holds reachable fact := by
  induction accesses generalizing assigned with
  | nil => exact fun _ member => absurd member List.not_mem_nil
  | cons access rest ih =>
    rcases access with ⟨name, line⟩ | ⟨name, line⟩ | ⟨name, line⟩
    · refine List.forall_mem_cons.mpr ⟨kept.read _ _ _ _ fun exposed => ?_, ih⟩
      exact (Bool.and_eq_true_iff.mp exposed).1
    · exact List.forall_mem_cons.mpr ⟨kept.write _ _ _, ih⟩
    · exact List.forall_mem_cons.mpr ⟨kept.call _ _ _, ih⟩

theorem loosen (kept : Kept holds) {reachable live : Bool} {facts : List Fact}
    (inside : ∀ fact ∈ facts, holds (reachable && live) fact) :
    ∀ fact ∈ facts, holds reachable fact := by
  intro fact member
  have here := inside fact member
  cases reachable with
  | false => exact here
  | true =>
    cases live with
    | false => exact kept.around fact here
    | true => exact here

theorem deadFact (kept : Kept holds) (context : Context) {kind : DeadKind} (startLine endLine : Nat)
    (description : String) (inner : kind ≠ .unusedFunction) :
    ∀ fact ∈ context.deadFact kind startLine endLine description,
      holds context.reachable fact := by
  unfold Context.deadFact
  split
  · rename_i reachable
    rw [reachable]
    exact List.forall_mem_singleton.mpr (kept.dead _ _ _ _ inner)
  · exact fun _ member => absurd member List.not_mem_nil

theorem add (kept : Kept holds) {constant : Option Bool} {line : Nat} {body : List (Stmt Mark)}
    {outcome : Outcome} (known : ∀ fact ∈ branches.facts, holds context.reachable fact)
    (inside : ∀ fact ∈ outcome.facts, holds context.reachable fact) :
    ∀ fact ∈ (branches.add context constant line body outcome).facts,
      holds context.reachable fact := by
  unfold Branches.add
  split
  · exact List.forall_mem_append.mpr ⟨known, List.forall_mem_append.mpr
      ⟨kept.deadFact context _ _ _ (by decide), inside⟩⟩
  · split
    · exact List.forall_mem_append.mpr ⟨known, List.forall_mem_append.mpr
        ⟨kept.deadFact context _ _ _ (by decide), inside⟩⟩
    · exact List.forall_mem_append.mpr ⟨known, inside⟩
    · exact List.forall_mem_append.mpr ⟨known, inside⟩

end Kept

mutual

/-- Every fact of a statement has a property that the pass keeps. -/
theorem kept_stmt {holds : Bool → Fact → Prop} (kept : Kept holds) (context : Context)
    (assigned : Names) :
    ∀ stmt, ∀ fact ∈ (stmtFlow context assigned stmt).facts, holds context.reachable fact
  | .assign .. => by
    simp only [stmtFlow]
    exact kept.observed
  | .cond tag condition thenBody elsifs elseBody => by
    simp only [stmtFlow]
    apply kept_else kept
    apply kept_clauses kept
    apply kept.add
    · exact kept.observed
    · exact kept.loosen (kept_block kept (context.inConditional.only _) _ thenBody)
  | .select tag selector elements elseBody => by
    simp only [stmtFlow]
    apply kept_else kept
    apply kept_elements kept
    exact kept.observed
  | .forLoop _ _ _ _ _ body => by
    simp only [stmtFlow]
    exact List.forall_mem_append.mpr ⟨kept.observed, kept_block kept context.inLoop _ body⟩
  | .whileLoop tag condition body => by
    simp only [stmtFlow]
    split
    · refine List.forall_mem_append.mpr ⟨List.forall_mem_append.mpr ⟨kept.observed, ?_⟩, ?_⟩
      · exact kept.deadFact context _ _ _ (by decide)
      · exact kept.loosen (kept_block kept (context.only false) _ body)
    · exact List.forall_mem_append.mpr ⟨kept.observed, kept_block kept context.inLoop _ body⟩
  | .repeatLoop _ body _ => by
    simp only [stmtFlow]
    exact List.forall_mem_append.mpr
      ⟨kept_block kept context.inLoop _ body, kept.loosen (kept.observed)⟩
  | .exit _ => by simp [stmtFlow]
  | .return_ _ => by simp [stmtFlow]
  | .call .. => by
    simp only [stmtFlow]
    exact kept.observed

theorem kept_block {holds : Bool → Fact → Prop} (kept : Kept holds) (context : Context)
    (assigned : Names) :
    ∀ body, ∀ fact ∈ (blockFlow context assigned body).facts, holds context.reachable fact
  | [] => by simp [blockFlow]
  | stmt :: rest => by
    have head : ∀ fact ∈ .statement stmt.tag.id context.info ::
        (stmtFlow context assigned stmt).facts, holds context.reachable fact :=
      List.forall_mem_cons.mpr
        ⟨kept.statement _ context.info, kept_stmt kept context assigned stmt⟩
    simp only [blockFlow]
    split
    · split
      · exact head
      · refine List.forall_mem_append.mpr ⟨List.forall_mem_append.mpr ⟨head, ?_⟩, ?_⟩
        · exact kept.deadFact context _ _ _ (by decide)
        · exact kept.loosen (kept_block kept (context.only false) _ rest)
    · exact List.forall_mem_append.mpr ⟨head, kept_block kept context _ rest⟩

theorem kept_clauses {holds : Bool → Fact → Prop} (kept : Kept holds) {context : Context}
    {branches : Branches} {before : Names} {elsifs : List (Clause Mark)}
    (known : ∀ fact ∈ branches.facts, holds context.reachable fact) :
    ∀ fact ∈ (clauseFlow context before branches elsifs).facts, holds context.reachable fact := by
  match elsifs with
  | [] =>
    simp only [clauseFlow]
    exact known
  | .mk span condition body :: rest =>
    simp only [clauseFlow]
    apply kept_clauses kept
    apply kept.add
    · split
      · exact List.forall_mem_append.mpr ⟨known, kept.observed⟩
      · exact known
    · exact kept.loosen (kept_block kept (context.only _) _ body)

theorem kept_elements {holds : Bool → Fact → Prop} (kept : Kept holds) {context : Context}
    {branches : Branches} {before : Names} {elements : List (Element Mark)}
    (known : ∀ fact ∈ branches.facts, holds context.reachable fact) :
    ∀ fact ∈ (elementFlow context before branches elements).facts,
      holds context.reachable fact := by
  match elements with
  | [] =>
    simp only [elementFlow]
    exact known
  | .mk labels body :: rest =>
    simp only [elementFlow]
    apply kept_elements kept
    exact List.forall_mem_append.mpr ⟨known, kept_block kept context _ body⟩

theorem kept_else {holds : Bool → Fact → Prop} (kept : Kept holds) {context : Context}
    {branches : Branches} {before : Names} {line : Nat} {elseBody : Option (List (Stmt Mark))}
    (known : ∀ fact ∈ branches.facts, holds context.reachable fact) :
    ∀ fact ∈ (elseFlow context before line branches elseBody).facts,
      holds context.reachable fact := by
  match elseBody with
  | none =>
    simp only [elseFlow]
    split
    · exact known
    · exact known
  | some body =>
    have inside := kept.loosen (kept_block kept (context.only branches.decided.isNone) before body)
    simp only [elseFlow]
    split
    · exact List.forall_mem_append.mpr ⟨known, List.forall_mem_append.mpr
        ⟨kept.deadFact context _ _ _ (by decide), inside⟩⟩
    · exact List.forall_mem_append.mpr ⟨known, inside⟩

end

end PlcAudit.Flow
