import Mathlib.Algebra.GroupWithZero.Nat
import PlcAudit.Code.Complexity

/-!
The walk that counts as a sum. What a piece of code adds to the counters depends on the number of
open scopes and on nothing else they hold, and what it adds is the sum over its parts. Scopes are
balanced, so the walk leaves as many open as it found.
-/

namespace PlcAudit.Code

/-- Counts over a part of a unit. -/
@[ext] structure Counts where
  decisions : Nat := 0
  weighted : Nat := 0
  deepest : Nat := 0
  loops : Nat := 0
  logical : Nat := 0
  returns : Nat := 0
  statements : Nat := 0

namespace Counts

def add (left right : Counts) : Counts where
  decisions := left.decisions + right.decisions
  weighted := left.weighted + right.weighted
  deepest := max left.deepest right.deepest
  loops := left.loops + right.loops
  logical := left.logical + right.logical
  returns := left.returns + right.returns
  statements := left.statements + right.statements

instance : Add Counts := ⟨add⟩

section

variable (left right : Counts)

@[simp] theorem decisions_add : (left + right).decisions = left.decisions + right.decisions := rfl
@[simp] theorem weighted_add : (left + right).weighted = left.weighted + right.weighted := rfl
@[simp] theorem deepest_add : (left + right).deepest = max left.deepest right.deepest := rfl
@[simp] theorem loops_add : (left + right).loops = left.loops + right.loops := rfl
@[simp] theorem logical_add : (left + right).logical = left.logical + right.logical := rfl
@[simp] theorem returns_add : (left + right).returns = left.returns + right.returns := rfl
@[simp] theorem statements_add :
    (left + right).statements = left.statements + right.statements := rfl

end

/-- Counts of a body inside a control structure, which is one level deeper even when it is empty. -/
def nested (depth : Nat) (body : Counts) : Counts :=
  { body with deepest := max (depth + 1) body.deepest }

/-- Decisions taken inside `depth` control structures. -/
def decided (depth count : Nat) : Counts :=
  { decisions := count, weighted := count * (1 + depth) }

/-- A loop inside `depth` control structures. -/
def loop (depth : Nat) : Counts :=
  { decided depth 1 with loops := 1 }

end Counts

mutual

/-- Number of AND and OR operators. -/
def Expr.logicalCount : Expr Mark → Nat
  | .binary _ op left right => op.isLogical.toNat + left.logicalCount + right.logicalCount
  | .unary _ _ operand => operand.logicalCount
  | .literal .. => 0
  | .variable _ _ _ indices _ => Expr.logicalCountAll indices
  | .call _ _ args => Arg.logicalCountAll args

def Expr.logicalCountAll : List (Expr Mark) → Nat
  | [] => 0
  | expr :: rest => expr.logicalCount + Expr.logicalCountAll rest

def Arg.logicalCountAll : List (Arg Mark) → Nat
  | [] => 0
  | .mk _ value _ :: rest => value.logicalCount + Arg.logicalCountAll rest

end

mutual

/-- Counts of a statement inside `depth` control structures. -/
def Stmt.counts (depth : Nat) : Stmt Mark → Counts
  | .assign _ target value =>
    { statements := 1 } + { logical := value.logicalCount } +
      { logical := Expr.logicalCountAll target.indices }
  | .cond _ condition thenBody elsifs elseBody =>
    { statements := 1 } + Counts.decided depth (1 + elsifs.length) +
      { logical := condition.logicalCount } +
      Counts.nested depth (Stmt.countsAll (depth + 1) thenBody) +
      Clause.counts depth elsifs + Stmt.countsOption depth elseBody
  | .select _ selector elements elseBody =>
    { statements := 1 } + Counts.decided depth elements.length +
      { logical := selector.logicalCount } + Element.counts depth elements +
      Stmt.countsOption depth elseBody
  | .forLoop _ _ _ _ _ body =>
    { statements := 1 } + Counts.loop depth +
      Counts.nested depth (Stmt.countsAll (depth + 1) body)
  | .whileLoop _ condition body =>
    { statements := 1 } + Counts.loop depth +
      { logical := condition.logicalCount } +
      Counts.nested depth (Stmt.countsAll (depth + 1) body)
  | .repeatLoop _ body until_ =>
    { statements := 1 } + Counts.loop depth +
      Counts.nested depth (Stmt.countsAll (depth + 1) body) +
      { logical := until_.logicalCount }
  | .exit _ => { statements := 1 }
  | .return_ _ => { statements := 1 } + { returns := 1 }
  | .call _ _ args => { statements := 1 } + { logical := Arg.logicalCountAll args }

def Stmt.countsAll (depth : Nat) : List (Stmt Mark) → Counts
  | [] => {}
  | stmt :: rest => stmt.counts depth + Stmt.countsAll depth rest

def Stmt.countsOption (depth : Nat) : Option (List (Stmt Mark)) → Counts
  | none => {}
  | some body => Counts.nested depth (Stmt.countsAll (depth + 1) body)

def Clause.counts (depth : Nat) : List (Clause Mark) → Counts
  | [] => {}
  | .mk _ condition body :: rest =>
    { logical := condition.logicalCount } +
      Counts.nested depth (Stmt.countsAll (depth + 1) body) + Clause.counts depth rest

def Element.counts (depth : Nat) : List (Element Mark) → Counts
  | [] => {}
  | .mk _ body :: rest =>
    Counts.nested depth (Stmt.countsAll (depth + 1) body) + Element.counts depth rest

end

/-! Counters behind counts -/

attribute [ext] Meter

namespace Meter

/-- The counters behind code with the given counts. Decisions and logical operators enter the
cyclomatic measure, weighed decisions and logical operators the cognitive one. -/
def plus (meter : Meter) (counts : Counts) : Meter where
  cyclomatic := meter.cyclomatic + counts.decisions + counts.logical
  cognitive := meter.cognitive + counts.weighted + counts.logical
  deepest := max meter.deepest counts.deepest
  depth := meter.depth
  decisions := meter.decisions + counts.decisions
  loops := meter.loops + counts.loops
  logical := meter.logical + counts.logical
  returns := meter.returns + counts.returns
  statements := meter.statements + counts.statements

variable (meter : Meter)

@[simp] theorem depth_plus (counts : Counts) : (meter.plus counts).depth = meter.depth := rfl

@[simp] theorem depth_enter : meter.enter.depth = meter.depth + 1 := rfl

@[simp] theorem plus_zero : meter.plus {} = meter := by
  ext <;> simp [plus]

@[simp] theorem plus_plus (first second : Counts) :
    (meter.plus first).plus second = meter.plus (first + second) := by
  ext <;> simp only [plus, Counts.decisions_add, Counts.weighted_add, Counts.deepest_add,
    Counts.loops_add, Counts.logical_add, Counts.returns_add, Counts.statements_add] <;> omega

/-- A scope that is left again keeps what was counted in it, and its own depth. -/
@[simp] theorem leave_enter_plus (counts : Counts) :
    (meter.enter.plus counts).leave = meter.plus (counts.nested meter.depth) := by
  ext <;> simp [plus, enter, leave, Counts.nested, Nat.max_assoc]

theorem countStatement_eq : meter.countStatement = meter.plus { statements := 1 } := by
  ext <;> simp [plus, countStatement]

theorem countReturn_eq : meter.countReturn = meter.plus { returns := 1 } := by
  ext <;> simp [plus, countReturn]

theorem countDecisions_eq (count : Nat) :
    meter.countDecisions count = meter.plus (.decided meter.depth count) := by
  ext <;> simp [plus, countDecisions, Counts.decided]

theorem countLoop_eq : meter.countLoop = meter.plus (.loop meter.depth) := by
  ext <;> simp [plus, countLoop, countDecisions, Counts.loop, Counts.decided]

theorem countOperator_eq (op : BinaryOp) :
    meter.countOperator op = meter.plus { logical := op.isLogical.toNat } := by
  cases op <;> ext <;> simp [plus, countOperator, BinaryOp.isLogical]

end Meter

/-! The walk -/

mutual

theorem Expr.measure_eq : ∀ (expr : Expr Mark) (meter : Meter),
    expr.measure meter = meter.plus { logical := expr.logicalCount }
  | .binary _ op left right, meter => by
    rw [Expr.measure, Expr.measure_eq right, Expr.measure_eq left, meter.countOperator_eq op]
    simp only [Meter.plus_plus]
    rfl
  | .unary _ _ operand, meter => by
    rw [Expr.measure, Expr.measure_eq operand, Expr.logicalCount]
  | .literal .., meter => by
    rw [Expr.measure, Expr.logicalCount, Meter.plus_zero]
  | .variable _ _ _ indices _, meter => by
    rw [Expr.measure, Expr.measureAll_eq indices, Expr.logicalCount]
  | .call _ _ args, meter => by
    rw [Expr.measure, Arg.measureAll_eq args, Expr.logicalCount]

theorem Expr.measureAll_eq : ∀ (exprs : List (Expr Mark)) (meter : Meter),
    Expr.measureAll meter exprs = meter.plus { logical := Expr.logicalCountAll exprs }
  | [], meter => by
    rw [Expr.measureAll, Expr.logicalCountAll, Meter.plus_zero]
  | expr :: rest, meter => by
    rw [Expr.measureAll, Expr.measure_eq expr, Expr.measureAll_eq rest, Meter.plus_plus]
    rfl

theorem Arg.measureAll_eq : ∀ (args : List (Arg Mark)) (meter : Meter),
    Arg.measureAll meter args = meter.plus { logical := Arg.logicalCountAll args }
  | [], meter => by
    rw [Arg.measureAll, Arg.logicalCountAll, Meter.plus_zero]
  | .mk _ value _ :: rest, meter => by
    rw [Arg.measureAll, Expr.measure_eq value, Arg.measureAll_eq rest, Meter.plus_plus]
    rfl

end

mutual

/-- A statement adds its counts at the depth where it is met. -/
theorem Stmt.measure_eq : ∀ (stmt : Stmt Mark) (meter : Meter),
    stmt.measure meter = meter.plus (stmt.counts meter.depth)
  | .assign _ target value, meter => by
    simp only [Stmt.measure, Expr.measureAll_eq, Expr.measure_eq, Meter.countStatement_eq,
      Meter.plus_plus, Stmt.counts]
  | .cond _ condition thenBody elsifs elseBody, meter => by
    simp only [Stmt.measure, Stmt.measureOption_eq elseBody, Clause.measureAll_eq elsifs,
      Stmt.measureAll_eq thenBody, Expr.measure_eq, Meter.countDecisions_eq,
      Meter.countStatement_eq, Meter.depth_enter, Meter.depth_plus, Meter.leave_enter_plus,
      Meter.plus_plus, Stmt.counts]
  | .select _ selector elements elseBody, meter => by
    simp only [Stmt.measure, Stmt.measureOption_eq elseBody, Element.measureAll_eq elements,
      Expr.measure_eq, Meter.countDecisions_eq, Meter.countStatement_eq, Meter.depth_plus,
      Meter.plus_plus, Stmt.counts]
  | .forLoop _ _ _ _ _ body, meter => by
    simp only [Stmt.measure, Stmt.measureAll_eq body, Meter.countLoop_eq, Meter.countStatement_eq,
      Meter.depth_enter, Meter.depth_plus, Meter.leave_enter_plus, Meter.plus_plus, Stmt.counts]
  | .whileLoop _ condition body, meter => by
    simp only [Stmt.measure, Stmt.measureAll_eq body, Expr.measure_eq, Meter.countLoop_eq,
      Meter.countStatement_eq, Meter.depth_enter, Meter.depth_plus, Meter.leave_enter_plus,
      Meter.plus_plus, Stmt.counts]
  | .repeatLoop _ body until_, meter => by
    simp only [Stmt.measure, Stmt.measureAll_eq body, Expr.measure_eq, Meter.countLoop_eq,
      Meter.countStatement_eq, Meter.depth_enter, Meter.depth_plus, Meter.leave_enter_plus,
      Meter.plus_plus, Stmt.counts]
  | .exit _, meter => by
    rw [Stmt.measure, Meter.countStatement_eq, Stmt.counts]
  | .return_ _, meter => by
    rw [Stmt.measure, Meter.countReturn_eq, Meter.countStatement_eq, Meter.plus_plus, Stmt.counts]
  | .call _ _ args, meter => by
    rw [Stmt.measure, Arg.measureAll_eq, Meter.countStatement_eq, Meter.plus_plus, Stmt.counts]

theorem Stmt.measureAll_eq : ∀ (body : List (Stmt Mark)) (meter : Meter),
    Stmt.measureAll meter body = meter.plus (Stmt.countsAll meter.depth body)
  | [], meter => by
    rw [Stmt.measureAll, Stmt.countsAll, Meter.plus_zero]
  | stmt :: rest, meter => by
    rw [Stmt.measureAll, Stmt.measureAll_eq rest, Stmt.measure_eq stmt, Meter.depth_plus,
      Meter.plus_plus, Stmt.countsAll]

theorem Stmt.measureOption_eq : ∀ (body : Option (List (Stmt Mark))) (meter : Meter),
    Stmt.measureOption meter body = meter.plus (Stmt.countsOption meter.depth body)
  | none, meter => by
    rw [Stmt.measureOption, Stmt.countsOption, Meter.plus_zero]
  | some body, meter => by
    rw [Stmt.measureOption, Stmt.measureAll_eq body, Meter.depth_enter, Meter.leave_enter_plus,
      Stmt.countsOption]

theorem Clause.measureAll_eq : ∀ (clauses : List (Clause Mark)) (meter : Meter),
    Clause.measureAll meter clauses = meter.plus (Clause.counts meter.depth clauses)
  | [], meter => by
    rw [Clause.measureAll, Clause.counts, Meter.plus_zero]
  | .mk _ condition body :: rest, meter => by
    simp only [Clause.measureAll, Clause.measureAll_eq rest, Stmt.measureAll_eq body,
      Expr.measure_eq, Meter.depth_enter, Meter.depth_plus, Meter.leave_enter_plus,
      Meter.plus_plus, Clause.counts]

theorem Element.measureAll_eq : ∀ (elements : List (Element Mark)) (meter : Meter),
    Element.measureAll meter elements = meter.plus (Element.counts meter.depth elements)
  | [], meter => by
    rw [Element.measureAll, Element.counts, Meter.plus_zero]
  | .mk _ body :: rest, meter => by
    rw [Element.measureAll, Element.measureAll_eq rest, Stmt.measureAll_eq body, Meter.depth_enter,
      Meter.leave_enter_plus, Meter.depth_plus, Meter.plus_plus, Element.counts]

end

/-! Units -/

/-- Logical operators in the initial values of a unit's variables. -/
def Pou.initialLogicalCount (pou : Pou Mark) : Nat :=
  (pou.blocks.map fun block =>
    (block.decls.map fun decl => (decl.initial.map Expr.logicalCount).getD 0).sum).sum

/-- Counts of a unit: those of its initial values and of its body. -/
def Pou.counts (pou : Pou Mark) : Counts :=
  { logical := pou.initialLogicalCount } + Stmt.countsAll 0 pou.body

/-- Where each item adds logical operators, all of them add the sum. -/
theorem Meter.foldl_eq {α : Type} {step : Meter → α → Meter} {count : α → Nat}
    (adds : ∀ item meter, step meter item = meter.plus { logical := count item })
    (items : List α) (meter : Meter) :
    items.foldl step meter = meter.plus { logical := (items.map count).sum } := by
  induction items generalizing meter with
  | nil => exact meter.plus_zero.symm
  | cons item rest ih =>
    rw [List.foldl_cons, ih, adds, plus_plus, List.map_cons, List.sum_cons]
    rfl

theorem VarDecl.measure_eq (decl : VarDecl Mark) (meter : Meter) :
    decl.measure meter =
      meter.plus { logical := (decl.initial.map Expr.logicalCount).getD 0 } := by
  rw [VarDecl.measure]
  cases decl.initial with
  | none => exact meter.plus_zero.symm
  | some value => exact value.measure_eq meter

theorem VarBlock.measure_eq (block : VarBlock Mark) (meter : Meter) :
    block.measure meter = meter.plus { logical :=
      (block.decls.map fun decl => (decl.initial.map Expr.logicalCount).getD 0).sum } :=
  Meter.foldl_eq VarDecl.measure_eq block.decls meter

theorem Pou.measure_eq (pou : Pou Mark) : pou.measure {} = Meter.plus {} pou.counts := by
  rw [Pou.measure, Stmt.measureAll_eq, Meter.foldl_eq VarBlock.measure_eq, Meter.depth_plus,
    Meter.plus_plus]
  rfl

/-- Measures that go back to counts. -/
structure Complexity.Gives (measures : Complexity) (counts : Counts) : Prop where
  statements : measures.statementCount = counts.statements
  loops : measures.loopCount = counts.loops
  returns : measures.returnPoints = counts.returns
  decisions : measures.decisionPoints = counts.decisions
  logical : measures.logicalOperators = counts.logical
  deepest : measures.nestingDepth = counts.deepest
  cyclomatic : measures.cyclomatic = 1 + counts.decisions + counts.logical
  cognitive : measures.cognitive = counts.weighted + counts.logical

/-- The counters at the end of a walk through a unit are its counts. -/
theorem Pou.complexity_gives (pou : Pou Mark) : pou.complexity.Gives pou.counts := by
  constructor <;> simp [Pou.complexity, Meter.complexity, pou.measure_eq, Meter.plus]

end PlcAudit.Code
