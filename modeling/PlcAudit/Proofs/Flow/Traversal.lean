import PlcAudit.Code.Walk
import PlcAudit.Proofs.Flow.Declaration

/-!
The structural pass beside the walk through the tree. The pass meets every access that the walk
meets, in dead code too, except in two places: the labels of CASE, and the conditions of ELSIF
behind a condition that is always true.
-/

namespace PlcAudit.Flow

open Code

/-! Accesses of a walk -/

/-- What a node accesses by itself, apart from its parts. -/
def nodeAccesses : Node → List Access
  | .stmt (.call tag name _) => [.call name tag.line]
  | .expr (.call tag name _) => [.call name tag.line]
  | .expr (.variable tag name _ _ _) => [.read name tag.line]
  | .target target =>
    (if target.dereference then [.read target.name target.tag.line] else []) ++
      [.write target.name target.tag.line]
  | _ => []

def accessesOf (nodes : List Node) : List Access := nodes.flatMap nodeAccesses

/-- All accesses of a unit: in its initial values and in its body. -/
def pouAccesses (pou : Pou Mark) : List Access := accessesOf (Root.pou pou).walk

@[simp] theorem accessesOf_nil : accessesOf [] = [] := rfl

@[simp] theorem accessesOf_cons (node : Node) (rest : List Node) :
    accessesOf (node :: rest) = nodeAccesses node ++ accessesOf rest :=
  List.flatMap_cons

@[simp] theorem accessesOf_append (first second : List Node) :
    accessesOf (first ++ second) = accessesOf first ++ accessesOf second :=
  List.flatMap_append

mutual

/-- The order of evaluation differs from that of the walk, the accesses do not. -/
theorem exprAccesses_perm : ∀ expr, (exprAccesses expr).Perm (accessesOf expr.walk)
  | .binary tag op left right => by
    simp only [exprAccesses, Expr.walk, accessesOf_cons, accessesOf_append, nodeAccesses,
      List.nil_append]
    exact (exprAccesses_perm left).append (exprAccesses_perm right)
  | .unary tag op operand => by
    simpa [exprAccesses, Expr.walk, nodeAccesses] using exprAccesses_perm operand
  | .literal tag kind text => by simp [exprAccesses, Expr.walk, nodeAccesses]
  | .variable tag name path indices dereference => by
    simpa [exprAccesses, Expr.walk, nodeAccesses] using indexAccesses_perm indices
  | .call tag name args => by
    simpa [exprAccesses, Expr.walk, nodeAccesses] using argAccesses_perm args

theorem indexAccesses_perm : ∀ exprs, (indexAccesses exprs).Perm (accessesOf (Expr.walkAll exprs))
  | [] => by simp [indexAccesses, Expr.walkAll]
  | expr :: rest => by
    simp only [indexAccesses, Expr.walkAll, accessesOf_append]
    exact (exprAccesses_perm expr).append (indexAccesses_perm rest)

theorem argAccesses_perm : ∀ args, (argAccesses args).Perm (accessesOf (Arg.walkAll args))
  | [] => by simp [argAccesses, Arg.walkAll]
  | .mk name (.variable tag variable_ path indices dereference) true :: rest => by
    simp only [argAccesses, Arg.walkAll, accessesOf_cons, accessesOf_append, nodeAccesses]
    -- The walk meets the target before its indices.
    have target := (indexAccesses_perm indices).append_right
      ((if dereference then [.read variable_ tag.line] else []) ++ [.write variable_ tag.line])
    have swapped := target.trans List.perm_append_comm
    simpa using swapped.append (argAccesses_perm rest)
  | .mk name (.variable tag variable_ path indices dereference) false :: rest
  | .mk name (.binary tag op left right) output :: rest
  | .mk name (.unary tag op operand) output :: rest
  | .mk name (.literal tag kind text) output :: rest
  | .mk name (.call tag callee args) output :: rest => by
    simp only [argAccesses, Arg.walkAll, accessesOf_append]
    exact (exprAccesses_perm _).append (argAccesses_perm rest)

end

theorem optionAccesses_perm (expr : Option (Expr Mark)) :
    (optionAccesses expr).Perm (accessesOf (Expr.walkOption expr)) := by
  cases expr with
  | none => exact .nil
  | some expr => exact exprAccesses_perm expr

theorem targetAccesses_perm (target : Target Mark) :
    (targetAccesses target).Perm (accessesOf target.walk) := by
  simp only [targetAccesses, Target.walk, accessesOf_cons, nodeAccesses]
  rw [List.append_assoc]
  exact List.perm_append_comm.trans ((indexAccesses_perm target.indices).append_left _)

/-! Accesses that the pass leaves out -/

mutual

/-- Accesses inside a statement that the pass does not meet. -/
def stmtOmits (constants : Constants) : Stmt Mark → List Access
  | .cond _ condition thenBody elsifs elseBody =>
    blockOmits constants thenBody ++
      clauseOmits constants (foldCondition constants condition == some true) elsifs ++
      elseOmits constants elseBody
  | .select _ _ elements elseBody =>
    elementOmits constants elements ++ elseOmits constants elseBody
  | .forLoop _ _ _ _ _ body => blockOmits constants body
  | .whileLoop _ _ body => blockOmits constants body
  | .repeatLoop _ body _ => blockOmits constants body
  | .assign .. => []
  | .exit _ => []
  | .return_ _ => []
  | .call .. => []

def blockOmits (constants : Constants) : List (Stmt Mark) → List Access
  | [] => []
  | stmt :: rest => stmtOmits constants stmt ++ blockOmits constants rest

/-- Behind a condition that is always true, no further condition is met. -/
def clauseOmits (constants : Constants) (decided : Bool) : List (Clause Mark) → List Access
  | [] => []
  | .mk _ condition body :: rest =>
    (if decided then exprAccesses condition else []) ++ blockOmits constants body ++
      clauseOmits constants (decided || foldCondition constants condition == some true) rest

/-- No label is met. -/
def elementOmits (constants : Constants) : List (Element Mark) → List Access
  | [] => []
  | .mk labels body :: rest =>
    indexAccesses labels ++ blockOmits constants body ++ elementOmits constants rest

def elseOmits (constants : Constants) : Option (List (Stmt Mark)) → List Access
  | none => []
  | some body => blockOmits constants body

end

/-- Accesses of a unit that the pass does not meet. -/
def pouOmits (pou : Pou Mark) : List Access := blockOmits (declarations pou).constants pou.body

/-! Accesses that the pass meets -/

def Fact.access? : Fact → Option Access
  | .read name line _ => some (.read name line)
  | .write name line => some (.write name line)
  | .call name line => some (.call name line)
  | _ => none

def Fact.isDeclaration : Fact → Bool
  | .declare .. => true
  | _ => false

/-- The accesses among facts, in order. -/
def metAccesses (facts : List Fact) : List Access := facts.filterMap Fact.access?

@[simp] theorem metAccesses_append (first second : List Fact) :
    metAccesses (first ++ second) = metAccesses first ++ metAccesses second :=
  List.filterMap_append

theorem metAccesses_cons (fact : Fact) (rest : List Fact) :
    metAccesses (fact :: rest) = fact.access?.toList ++ metAccesses rest := by
  cases met : fact.access? <;> simp [metAccesses, met]

@[simp] theorem metAccesses_observe (reachable : Bool) (assigned : Names)
    (accesses : List Access) : metAccesses (observe reachable assigned accesses).1 = accesses := by
  induction accesses generalizing assigned with
  | nil => rfl
  | cons access rest ih =>
    rcases access with ⟨name, line⟩ | ⟨name, line⟩ | ⟨name, line⟩
    · exact congrArg _ (ih assigned)
    · exact congrArg _ (ih _)
    · exact congrArg _ (ih assigned)

/-- Facts about code account for its accesses: what they meet and what is omitted make up all of
them, and nothing is declared. -/
structure Accounts (facts : List Fact) (omitted accesses : List Access) : Prop where
  undeclared : ∀ fact ∈ facts, fact.isDeclaration = false
  total : (metAccesses facts ++ omitted).Perm accesses

theorem Accounts.nil : Accounts [] [] [] where
  undeclared := by simp
  total := .nil

theorem Accounts.append {first second : List Fact} {omitted more accesses further : List Access}
    (front : Accounts first omitted accesses) (back : Accounts second more further) :
    Accounts (first ++ second) (omitted ++ more) (accesses ++ further) where
  undeclared := fun fact member => (List.mem_append.mp member).elim (front.undeclared fact)
    (back.undeclared fact)
  total := by
    have inner : (metAccesses second ++ omitted).Perm (omitted ++ metAccesses second) :=
      List.perm_append_comm
    have middle := (inner.append_right more).append_left (metAccesses first)
    simp only [List.append_assoc] at middle
    rw [metAccesses_append, List.append_assoc]
    refine middle.trans ?_
    rw [← List.append_assoc]
    exact front.total.append back.total

/-- Facts that are no accesses change nothing. -/
theorem Accounts.cons {facts : List Fact} {omitted accesses : List Access}
    (known : Accounts facts omitted accesses) (fact : Fact) (plain : fact.access? = none)
    (undeclared : fact.isDeclaration = false) : Accounts (fact :: facts) omitted accesses where
  undeclared := fun other member => (List.mem_cons.mp member).elim (fun same => same ▸ undeclared)
    (known.undeclared other)
  total := by
    rw [metAccesses_cons, plain]
    exact known.total

theorem Accounts.omit {facts : List Fact} {omitted accesses : List Access}
    (known : Accounts facts omitted accesses) {others all : List Access} (same : others.Perm all) :
    Accounts facts (others ++ omitted) (all ++ accesses) where
  undeclared := known.undeclared
  total := by
    rw [← List.append_assoc]
    refine (List.perm_append_comm.append_right omitted).trans ?_
    rw [List.append_assoc]
    exact same.append known.total

theorem accounts_observe (reachable : Bool) (assigned : Names) {accesses others : List Access}
    (same : accesses.Perm others) : Accounts (observe reachable assigned accesses).1 [] others where
  undeclared := by
    intro fact member
    have plain := (observe_plain member).2
    cases fact <;> first | rfl | exact absurd rfl (plain _ _)
  total := by simpa using same

theorem accounts_deadFact (context : Context) (kind : DeadKind) (startLine endLine : Nat)
    (description : String) :
    Accounts (context.deadFact kind startLine endLine description) [] [] := by
  unfold Context.deadFact
  split
  · exact Accounts.nil.cons _ rfl rfl
  · exact .nil

/-- A note on dead code between two pieces of code changes nothing. -/
theorem Accounts.append_dead {first second : List Fact}
    {omitted more accesses further : List Access} (front : Accounts first omitted accesses)
    (back : Accounts second more further) (context : Context) (kind : DeadKind)
    (startLine endLine : Nat) (description : String) :
    Accounts (first ++ context.deadFact kind startLine endLine description ++ second)
      (omitted ++ more) (accesses ++ further) := by
  rw [List.append_assoc]
  exact front.append ((accounts_deadFact ..).append back)

namespace Branches

variable {outcome : Outcome} {omitted more accesses further : List Access}

theorem accounts_add (branches : Branches) (context : Context) (constant : Option Bool) (line : Nat)
    (body : List (Stmt Mark)) (known : Accounts branches.facts omitted accesses)
    (inside : Accounts outcome.facts more further) :
    Accounts (branches.add context constant line body outcome).facts (omitted ++ more)
      (accesses ++ further) := by
  unfold add
  split
  · exact known.append ((accounts_deadFact ..).append inside)
  · split
    · exact known.append ((accounts_deadFact ..).append inside)
    · exact known.append inside
    · exact known.append inside

/-- The condition of a clause is met, or omitted behind an always true one. -/
theorem accounts_condition (branches : Branches) (context : Context) (before : Names)
    (condition : Expr Mark) (known : Accounts branches.facts omitted accesses) :
    Accounts (if branches.decided.isNone then
        branches.note (observe context.reachable before (exprAccesses condition)).1
      else branches).facts
      (omitted ++ if branches.decided.isSome then exprAccesses condition else [])
      (accesses ++ accessesOf condition.walk) := by
  cases branches.decided with
  | none => exact known.append (accounts_observe _ _ (exprAccesses_perm condition))
  | some trueLine =>
    simpa using known.append (Accounts.nil.omit (exprAccesses_perm condition))

theorem decided_condition (branches : Branches) (context : Context) (before : Names)
    (condition : Expr Mark) :
    (if branches.decided.isNone then
        branches.note (observe context.reachable before (exprAccesses condition)).1
      else branches).decided = branches.decided := by
  split <;> rfl

/-- A branch decides all that follow it when its condition is always true. -/
theorem decided_add (branches : Branches) (context : Context) (constant : Option Bool) (line : Nat)
    (body : List (Stmt Mark)) (outcome : Outcome) :
    (branches.add context constant line body outcome).decided.isSome =
      (branches.decided.isSome || constant == some true) := by
  unfold add
  cases known : branches.decided with
  | some trueLine => simp [note, known]
  | none => rcases constant with _ | _ | _ <;> simp [note, join, known]

end Branches

mutual

/-- What the pass meets of a statement and what it omits are all accesses that the walk meets. -/
theorem stmt_accounts (context : Context) (assigned : Names) :
    ∀ stmt, Accounts (stmtFlow context assigned stmt).facts (stmtOmits context.constants stmt)
      (accessesOf stmt.walk)
  | .assign tag target value => by
    simp only [stmtFlow, stmtOmits, Stmt.walk, accessesOf_cons, accessesOf_append, nodeAccesses,
      List.nil_append]
    exact accounts_observe _ _ ((exprAccesses_perm value).append (targetAccesses_perm target))
  | .cond tag condition thenBody elsifs elseBody => by
    simp only [stmtFlow, stmtOmits, Stmt.walk, accessesOf_cons, accessesOf_append, nodeAccesses,
      List.nil_append]
    have start := accounts_observe context.reachable assigned (exprAccesses_perm condition)
    generalize observe context.reachable assigned (exprAccesses condition) = seen at start ⊢
    have branch := Branches.accounts_add { facts := seen.1 } context.inConditional
      (foldCondition context.constants condition) tag.line thenBody start
      (block_accounts (context.inConditional.only
        (Branches.isLive { facts := seen.1 } (foldCondition context.constants condition)))
        seen.2 thenBody)
    have clauses := clauses_account context.inConditional seen.2 elsifs branch
    rw [Branches.decided_add] at clauses
    exact else_accounts context.inConditional seen.2 tag.line elseBody clauses
  | .select tag selector elements elseBody => by
    simp only [stmtFlow, stmtOmits, Stmt.walk, accessesOf_cons, accessesOf_append, nodeAccesses,
      List.nil_append]
    have start := accounts_observe context.reachable assigned (exprAccesses_perm selector)
    have branches := elements_account { facts := _ } context.inConditional
      (observe context.reachable assigned (exprAccesses selector)).2 elements start
    exact else_accounts context.inConditional _ tag.line elseBody branches
  | .forLoop tag counter start stop step body => by
    simp only [stmtFlow, stmtOmits, Stmt.walk, accessesOf_cons, accessesOf_append, nodeAccesses,
      List.nil_append]
    have head := (((exprAccesses_perm start).append (exprAccesses_perm stop)).append
      (optionAccesses_perm step)).append (targetAccesses_perm counter)
    exact (accounts_observe _ _ head).append (block_accounts context.inLoop _ body)
  | .whileLoop tag condition body => by
    simp only [stmtFlow, stmtOmits, Stmt.walk, accessesOf_cons, accessesOf_append, nodeAccesses,
      List.nil_append]
    have head := accounts_observe context.reachable assigned (exprAccesses_perm condition)
    split
    · exact head.append_dead (block_accounts (context.only false) _ body) ..
    · exact head.append (block_accounts context.inLoop _ body)
  | .repeatLoop tag body until_ => by
    simp only [stmtFlow, stmtOmits, Stmt.walk, accessesOf_cons, accessesOf_append, nodeAccesses,
      List.nil_append]
    have inside := block_accounts context.inLoop assigned body
    simpa [Context.inLoop] using inside.append (accounts_observe _ _ (exprAccesses_perm until_))
  | .exit tag => by simpa [stmtFlow, stmtOmits, Stmt.walk, nodeAccesses] using Accounts.nil
  | .return_ tag => by simpa [stmtFlow, stmtOmits, Stmt.walk, nodeAccesses] using Accounts.nil
  | .call tag name args => by
    simp only [stmtFlow, stmtOmits, Stmt.walk, accessesOf_cons, nodeAccesses]
    exact accounts_observe _ _ ((argAccesses_perm args).cons _)

theorem block_accounts (context : Context) (assigned : Names) :
    ∀ body, Accounts (blockFlow context assigned body).facts (blockOmits context.constants body)
      (accessesOf (Stmt.walkAll body))
  | [] => by simpa [blockFlow, blockOmits, Stmt.walkAll] using Accounts.nil
  | stmt :: rest => by
    have head := (stmt_accounts context assigned stmt).cons
      (.statement stmt.tag.id context.info) rfl rfl
    simp only [blockFlow, blockOmits, Stmt.walkAll, accessesOf_append]
    split
    · split
      · rename_i empty
        have last := List.isEmpty_iff.mp empty
        subst rest
        simpa [blockOmits, Stmt.walkAll] using head
      · exact head.append_dead (block_accounts (context.only false) _ rest) ..
    · exact head.append (block_accounts context _ rest)

theorem clauses_account {branches : Branches} {omitted accesses : List Access}
    (context : Context) (before : Names) (elsifs : List (Clause Mark))
    (known : Accounts branches.facts omitted accesses) :
    Accounts (clauseFlow context before branches elsifs).facts
      (omitted ++ clauseOmits context.constants branches.decided.isSome elsifs)
      (accesses ++ accessesOf (Clause.walkAll elsifs)) := by
  match elsifs with
  | [] => simpa [clauseFlow, clauseOmits, Clause.walkAll] using known
  | .mk span condition body :: rest =>
    simp only [clauseFlow, clauseOmits, Clause.walkAll, accessesOf_append]
    have met := branches.accounts_condition context before condition known
    have same := branches.decided_condition context before condition
    generalize (if branches.decided.isNone then branches.note _ else branches) = noted at met same ⊢
    let live := noted.isLive (foldCondition context.constants condition)
    have inside : Accounts (blockFlow (context.only live) before body).facts
        (blockOmits context.constants body) (accessesOf (Stmt.walkAll body)) :=
      block_accounts (context.only live) before body
    have branch := noted.accounts_add context (foldCondition context.constants condition)
      span.startLine body met inside
    have clauses := clauses_account context before rest branch
    rw [Branches.decided_add, same] at clauses
    simpa only [List.append_assoc] using clauses

theorem elements_account {omitted accesses : List Access} (branches : Branches)
    (context : Context) (before : Names) (elements : List (Element Mark))
    (known : Accounts branches.facts omitted accesses) :
    Accounts (elementFlow context before branches elements).facts
      (omitted ++ elementOmits context.constants elements)
      (accesses ++ accessesOf (Element.walkAll elements)) := by
  match elements with
  | [] => simpa [elementFlow, elementOmits, Element.walkAll] using known
  | .mk labels body :: rest =>
    simp only [elementFlow, elementOmits, Element.walkAll, accessesOf_append]
    have inside := (block_accounts context before body).omit (indexAccesses_perm labels)
    have more := elements_account (branches.join (blockFlow context before body))
      context before rest (known.append inside)
    simpa only [List.append_assoc] using more

theorem else_accounts {branches : Branches} {omitted accesses : List Access}
    (context : Context) (before : Names) (line : Nat) (elseBody : Option (List (Stmt Mark)))
    (known : Accounts branches.facts omitted accesses) :
    Accounts (elseFlow context before line branches elseBody).facts
      (omitted ++ elseOmits context.constants elseBody)
      (accesses ++ accessesOf (Stmt.walkOption elseBody)) := by
  match elseBody with
  | none =>
    simp only [elseFlow, elseOmits, Stmt.walkOption, List.append_nil, accessesOf_nil]
    split
    · exact known
    · exact known
  | some body =>
    have inside := block_accounts (context.only branches.decided.isNone) before body
    simp only [elseFlow, elseOmits, Stmt.walkOption]
    split
    · exact known.append ((accounts_deadFact ..).append inside)
    · exact known.append inside

end

/-! Units -/

theorem initialAccesses_perm (blocks : List (VarBlock Mark)) :
    (initialAccesses (blocks.flatMap fun block => block.decls.map fun decl => (block, decl))).Perm
      (accessesOf (blocks.flatMap VarBlock.walk)) := by
  have decls_perm (block : VarBlock Mark) (decls : List (VarDecl Mark)) :
      (initialAccesses (decls.map fun decl => (block, decl))).Perm
        (accessesOf (decls.flatMap VarDecl.walk)) := by
    induction decls with
    | nil => exact .nil
    | cons decl rest ih =>
      rw [List.map_cons, initialAccesses_cons, List.flatMap_cons, accessesOf_append]
      exact (optionAccesses_perm decl.initial).append ih
  induction blocks with
  | nil => exact .nil
  | cons block rest ih =>
    rw [List.flatMap_cons, initialAccesses_append, List.flatMap_cons, accessesOf_append]
    exact (decls_perm block block.decls).append ih

/-- What the pass meets in a unit, in its order. -/
def pouMet (pou : Pou Mark) : List Access :=
  initialAccesses pou.decls ++ metAccesses (bodyFlow pou).facts

/-- What the pass meets of a unit and what it omits are all accesses that the walk meets. -/
theorem pou_accounts (pou : Pou Mark) : (pouMet pou ++ pouOmits pou).Perm (pouAccesses pou) := by
  have body := block_accounts { constants := (declarations pou).constants }
    (declarations pou).assigned pou.body
  have total := (initialAccesses_perm pou.blocks).append body.total
  simp only [pouMet, pouAccesses, Root.walk, accessesOf_cons, accessesOf_append, nodeAccesses,
    List.nil_append, List.append_assoc]
  exact total

end PlcAudit.Flow
