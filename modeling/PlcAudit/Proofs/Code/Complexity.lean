import PlcAudit.Proofs.Code.Counting
import PlcAudit.Proofs.Code.Measure

/-!
Complexity against the tree. The counts of a unit are sums over its nodes, and so is its cognitive
weight. Logical operators in two places do not enter: those in the header of a FOR loop and those in
the labels of a CASE statement.
-/

namespace PlcAudit.Code

/-! Counts of nodes -/

/-- What a node inside some control structures adds to the counts of its parts. -/
def Node.own (depth : Nat) (node : Node) : Counts where
  statements := node.isStatement.toNat
  loops := node.isLoop.toNat
  returns := node.isReturn.toNat
  decisions := node.decisions
  weighted := node.decisions * (1 + depth)

/-- Logical operators in parts of a node that the measures do not look at. -/
def overlooked (node : Node) : Nat :=
  total Node.logical node.passedOver

/-- The counts are those of nodes and of all that is inside them, short of logical operators that
are overlooked. -/
structure Tallies (around nodes : List Node) (counts : Counts) : Prop where
  statements : counts.statements = total (fun node => node.isStatement.toNat) nodes
  loops : counts.loops = total (fun node => node.isLoop.toNat) nodes
  returns : counts.returns = total (fun node => node.isReturn.toNat) nodes
  decisions : counts.decisions = total Node.decisions nodes
  weighted : counts.weighted = weightOf around nodes
  logical : counts.logical + total overlooked nodes = total Node.logical nodes

namespace Tallies

variable {around nodes others : List Node} {counts more : Counts}

theorem nil : Tallies around [] {} := ⟨rfl, rfl, rfl, rfl, rfl, rfl⟩

theorem append (front : Tallies around nodes counts) (back : Tallies around others more) :
    Tallies around (nodes ++ others) (counts + more) where
  statements := by rw [total_append, ← front.statements, ← back.statements]; rfl
  loops := by rw [total_append, ← front.loops, ← back.loops]; rfl
  returns := by rw [total_append, ← front.returns, ← back.returns]; rfl
  decisions := by rw [total_append, ← front.decisions, ← back.decisions]; rfl
  weighted := by rw [weightOf_append, ← front.weighted, ← back.weighted]; rfl
  logical := by
    have first := front.logical
    have second := back.logical
    simp only [total_append, Counts.logical_add]
    omega

/-- Data adds its logical operators. -/
theorem data (data : ∀ node ∈ nodes, node.isData = true) :
    Tallies around nodes { logical := total Node.logical nodes } where
  statements := (total_data
    (fun _ data => congrArg Bool.toNat (Node.silent_of_isData data).statement) data).symm
  loops := (total_data
    (fun _ data => congrArg Bool.toNat (Node.silent_of_isData data).loop) data).symm
  returns := (total_data
    (fun _ data => congrArg Bool.toNat (Node.silent_of_isData data).return_) data).symm
  decisions := (total_data (fun _ data => (Node.silent_of_isData data).decisions) data).symm
  weighted := (weightOf_data data).symm
  logical := Nat.add_eq_left.mpr
    (total_data (fun _ data => congrArg (total _) (Node.silent_of_isData data).passedOver) data)

theorem nested (tallied : Tallies around nodes counts) (depth : Nat) :
    Tallies around nodes (counts.nested depth) :=
  ⟨tallied.statements, tallied.loops, tallied.returns, tallied.decisions, tallied.weighted,
    tallied.logical⟩

/-- A node adds what it is to the counts of the parts that are looked at. -/
theorem node {node : Node} (plain : node.isLogical = false)
    (parts : Tallies (node :: around) node.measured more)
    (whole : counts = node.own (around.countP Node.isControl) + more) :
    Tallies around [node] counts := by
  subst whole
  have passed : Tallies (node :: around) node.passedOver _ :=
    data fun _ => Node.isData_of_mem_passedOver
  have adds {measure : Node → Nat} {below : Nat} (quiet : 0 = total measure node.passedOver)
      (known : below = total measure node.measured) :
      measure node + below = total measure [node] := by
    rw [total_node, total_perm node.children_perm, total_append, ← quiet, ← known, Nat.zero_add]
  constructor
  case statements => exact adds passed.statements parts.statements
  case loops => exact adds passed.loops parts.loops
  case returns => exact adds passed.returns parts.returns
  case decisions => exact adds passed.decisions parts.decisions
  case weighted =>
    rw [weightOf_node, weightOf_perm node.children_perm, weightOf_append, ← parts.weighted,
      ← passed.weighted, Nat.zero_add]
    rfl
  case logical =>
    -- Parts that are passed over pass nothing over themselves, so what is lost there is lost once.
    have below := parts.logical
    have quiet : total overlooked node.passedOver = 0 := Nat.add_eq_left.mp passed.logical
    have own : total overlooked [node] =
        total Node.logical node.passedOver + total overlooked node.measured := by
      rw [total_node, total_perm node.children_perm, total_append, quiet, Nat.zero_add]
      rfl
    have here : total Node.logical [node] =
        total Node.logical node.passedOver + total Node.logical node.measured := by
      rw [total_logical_children plain, total_perm node.children_perm, total_append]
    have inner : (node.own (around.countP Node.isControl) + more).logical = more.logical :=
      Nat.zero_add _
    omega

end Tallies

/-! Statements -/

mutual

theorem Expr.logicalCount_eq : ∀ expr : Expr Mark,
    expr.logicalCount = total Node.logical [.expr expr]
  | .binary tag op left right => by
    rw [Expr.logicalCount, total_node, Expr.logicalCount_eq left, Expr.logicalCount_eq right,
      Nat.add_assoc, ← total_append]
    congr 1
    cases op <;> rfl
  | .unary _ _ operand => by
    rw [Expr.logicalCount, total_logical_children rfl, Expr.logicalCount_eq operand]
    rfl
  | .literal .. => rfl
  | .variable _ _ _ indices _ => by
    rw [Expr.logicalCount, total_logical_children rfl, Expr.logicalCountAll_eq indices]
    rfl
  | .call _ _ args => by
    rw [Expr.logicalCount, total_logical_children rfl, Arg.logicalCountAll_eq args]
    rfl

theorem Expr.logicalCountAll_eq : ∀ exprs : List (Expr Mark),
    Expr.logicalCountAll exprs = total Node.logical (exprs.map .expr)
  | [] => rfl
  | expr :: rest => by
    rw [Expr.logicalCountAll, Expr.logicalCount_eq expr, Expr.logicalCountAll_eq rest,
      ← total_append]
    rfl

theorem Arg.logicalCountAll_eq : ∀ args : List (Arg Mark),
    Arg.logicalCountAll args =
      total Node.logical (args.map fun arg => .expr arg.value)
  | [] => rfl
  | .mk _ value _ :: rest => by
    rw [Arg.logicalCountAll, Expr.logicalCount_eq value, Arg.logicalCountAll_eq rest,
      ← total_append]
    rfl

end

namespace Tallies

variable {around : List Node}

theorem expr (expr : Expr Mark) :
    Tallies around [.expr expr] { logical := expr.logicalCount } := by
  rw [expr.logicalCount_eq]
  exact data fun _ member => List.mem_singleton.mp member ▸ rfl

theorem args (args : List (Arg Mark)) :
    Tallies around (args.map fun arg => .expr arg.value)
      { logical := Arg.logicalCountAll args } := by
  rw [Arg.logicalCountAll_eq]
  refine data fun _ member => ?_
  obtain ⟨_, _, rfl⟩ := List.mem_map.mp member
  rfl

theorem target (target : Target Mark) :
    Tallies around [.target target] { logical := Expr.logicalCountAll target.indices } := by
  have indices : total Node.logical [.target target] =
      total Node.logical (target.indices.map .expr) := total_logical_children rfl
  rw [Expr.logicalCountAll_eq, ← indices]
  exact data fun _ member => List.mem_singleton.mp member ▸ rfl

end Tallies

/-- The counts of the parts of a statement that are looked at. -/
def Stmt.partCounts (depth : Nat) : Stmt Mark → Counts
  | .assign _ target value =>
    { logical := Expr.logicalCountAll target.indices } + { logical := value.logicalCount }
  | .cond _ condition thenBody elsifs elseBody =>
    { logical := condition.logicalCount } + (Stmt.countsAll (depth + 1) thenBody).nested depth +
      Clause.counts depth elsifs + Stmt.countsOption depth elseBody
  | .select _ selector elements elseBody =>
    { logical := selector.logicalCount } + Element.counts depth elements +
      Stmt.countsOption depth elseBody
  | .forLoop _ _ _ _ _ body => (Stmt.countsAll (depth + 1) body).nested depth
  | .whileLoop _ condition body =>
    { logical := condition.logicalCount } + (Stmt.countsAll (depth + 1) body).nested depth
  | .repeatLoop _ body until_ =>
    (Stmt.countsAll (depth + 1) body).nested depth + { logical := until_.logicalCount }
  | .exit _ | .return_ _ => {}
  | .call _ _ args => { logical := Arg.logicalCountAll args }

theorem Stmt.counts_eq (depth : Nat) (stmt : Stmt Mark) :
    stmt.counts depth = (Node.stmt stmt).own depth + stmt.partCounts depth := by
  cases stmt <;> ext <;>
    simp [counts, partCounts, Node.own, Node.isStatement, Node.isLoop, Node.isReturn,
      Node.decisions, Stmt.isLoop, Counts.loop, Counts.decided] <;>
    omega

/-- One control structure more is around the parts of a control structure. -/
theorem countP_control {around : List Node} {depth : Nat}
    (level : around.countP Node.isControl = depth) (node : Node)
    (control : node.isControl = true) :
    (node :: around).countP Node.isControl = depth + 1 := by
  rw [List.countP_cons_of_pos control, level]

theorem Tallies.stmt {around : List Node} {depth : Nat}
    (level : around.countP Node.isControl = depth) {stmt : Stmt Mark}
    (parts : Tallies (.stmt stmt :: around) (Node.stmt stmt).measured (stmt.partCounts depth)) :
    Tallies around [.stmt stmt] (stmt.counts depth) :=
  .node rfl parts (level ▸ stmt.counts_eq depth)

mutual

theorem Stmt.counts_tallies {around : List Node} {depth : Nat}
    (level : around.countP Node.isControl = depth) :
    ∀ stmt : Stmt Mark, Tallies around [.stmt stmt] (stmt.counts depth)
  | .assign _ target value => .stmt level ((Tallies.target target).append (.expr value))
  | .cond _ condition thenBody elsifs elseBody =>
    have inside := countP_control level (.stmt (.cond _ condition thenBody elsifs elseBody)) rfl
    .stmt level ((((Tallies.expr condition).append
      ((Stmt.countsAll_tallies inside thenBody).nested depth)).append
      (Clause.counts_tallies inside elsifs)).append (Stmt.countsOption_tallies inside elseBody))
  | .select _ selector elements elseBody =>
    have inside := countP_control level (.stmt (.select _ selector elements elseBody)) rfl
    .stmt level (((Tallies.expr selector).append
      (Element.counts_tallies inside elements)).append (Stmt.countsOption_tallies inside elseBody))
  | .forLoop _ counter start stop step body =>
    have inside := countP_control level (.stmt (.forLoop _ counter start stop step body)) rfl
    .stmt level ((Stmt.countsAll_tallies inside body).nested depth)
  | .whileLoop _ condition body =>
    have inside := countP_control level (.stmt (.whileLoop _ condition body)) rfl
    .stmt level ((Tallies.expr condition).append
      ((Stmt.countsAll_tallies inside body).nested depth))
  | .repeatLoop _ body until_ =>
    have inside := countP_control level (.stmt (.repeatLoop _ body until_)) rfl
    .stmt level (((Stmt.countsAll_tallies inside body).nested depth).append (.expr until_))
  | .exit _ | .return_ _ => .stmt level .nil
  | .call _ _ args => .stmt level (.args args)

theorem Stmt.countsAll_tallies {around : List Node} {depth : Nat}
    (level : around.countP Node.isControl = depth) :
    ∀ body : List (Stmt Mark), Tallies around (body.map .stmt) (Stmt.countsAll depth body)
  | [] => by
    rw [Stmt.countsAll]
    exact .nil
  | stmt :: rest => by
    rw [Stmt.countsAll]
    exact (Stmt.counts_tallies level stmt).append (Stmt.countsAll_tallies level rest)

theorem Stmt.countsOption_tallies {around : List Node} {depth : Nat}
    (level : around.countP Node.isControl = depth + 1) : ∀ body : Option (List (Stmt Mark)),
    Tallies around ((body.getD []).map .stmt) (Stmt.countsOption depth body)
  | none => by
    rw [Stmt.countsOption]
    exact .nil
  | some body => by
    rw [Stmt.countsOption]
    exact (Stmt.countsAll_tallies level body).nested depth

theorem Clause.counts_tallies {around : List Node} {depth : Nat}
    (level : around.countP Node.isControl = depth + 1) : ∀ clauses : List (Clause Mark),
    Tallies around (clauses.flatMap fun clause => .expr clause.condition :: clause.body.map .stmt)
      (Clause.counts depth clauses)
  | [] => by
    rw [Clause.counts]
    exact .nil
  | .mk span condition body :: rest => by
    rw [Clause.counts]
    exact ((Tallies.expr condition).append
      ((Stmt.countsAll_tallies level body).nested depth)).append (Clause.counts_tallies level rest)

theorem Element.counts_tallies {around : List Node} {depth : Nat}
    (level : around.countP Node.isControl = depth + 1) : ∀ elements : List (Element Mark),
    Tallies around (elements.flatMap fun element => element.body.map .stmt)
      (Element.counts depth elements)
  | [] => by
    rw [Element.counts]
    exact .nil
  | .mk labels body :: rest => by
    rw [Element.counts]
    exact ((Stmt.countsAll_tallies level body).nested depth).append
      (Element.counts_tallies level rest)

end

/-! Units -/

theorem VarDecl.total_logical (decl : VarDecl Mark) :
    total Node.logical [.decl decl] = (decl.initial.map Expr.logicalCount).getD 0 := by
  have parts : total Node.logical [.decl decl] =
      total Node.logical (decl.initial.toList.map .expr) := total_logical_children rfl
  rw [parts]
  cases decl.initial with
  | none => rfl
  | some expr => exact expr.logicalCount_eq.symm

theorem VarBlock.total_logical (block : VarBlock Mark) :
    total Node.logical [.block block] =
      (block.decls.map fun decl => (decl.initial.map Expr.logicalCount).getD 0).sum := by
  have parts : total Node.logical [.block block] = total Node.logical (block.decls.map .decl) :=
    total_logical_children rfl
  rw [parts, total_map]
  simp only [VarDecl.total_logical]

theorem Pou.initialLogicalCount_eq (pou : Pou Mark) :
    pou.initialLogicalCount = total Node.logical (pou.blocks.map .block) := by
  rw [total_map]
  simp only [VarBlock.total_logical]
  rfl

/-- The counts of a unit are those of all that is inside it. -/
theorem Pou.counts_tallies (pou : Pou Mark) : Tallies [] [.pou pou] pou.counts := by
  have blocks : ∀ node ∈ pou.blocks.map Node.block, node.isData = true := by
    simp [Node.isData]
  have level : [Node.pou pou].countP Node.isControl = 0 := rfl
  rw [Pou.counts, pou.initialLogicalCount_eq]
  refine .node rfl ((Tallies.data blocks).append (Stmt.countsAll_tallies level pou.body)) ?_
  ext <;> simp [Node.own, Node.isStatement, Node.isLoop, Node.isReturn, Node.decisions]

theorem total_overlooked (node : Node) :
    total overlooked [node] =
      ((node.listing.flatMap Node.passedOver).flatMap Node.listing).countP Node.isLogical := by
  rw [countP_eq_total, total_flatMap, total_singleton]
  rfl

/-- The cyclomatic measure of a unit is one more than its decisions and logical operators, short of
the logical operators in the headers of FOR loops and in the labels of CASE statements. So it is
exact where there are none. -/
theorem Pou.cyclomatic_shortOf_passedOver (pou : Pou Mark) :
    let nodes := (Node.pou pou).listing
    let passed := (nodes.flatMap Node.passedOver).flatMap Node.listing
    pou.complexity.cyclomatic + passed.countP Node.isLogical =
      1 + (nodes.map Node.decisions).sum + nodes.countP Node.isLogical ∧
    pou.complexity.logicalOperators + passed.countP Node.isLogical =
      nodes.countP Node.isLogical ∧
    ((pou.complexity.cyclomatic =
          1 + (nodes.map Node.decisions).sum + nodes.countP Node.isLogical ∧
        pou.complexity.logicalOperators = nodes.countP Node.isLogical) ↔
      ∀ node ∈ passed, node.isLogical = false) := by
  intro nodes passed
  have tallied := pou.counts_tallies
  have gives := pou.complexity_gives
  have logical : pou.complexity.logicalOperators + passed.countP Node.isLogical =
      nodes.countP Node.isLogical := by
    rw [← total_overlooked, ← total_toNat, gives.logical]
    exact tallied.logical
  have decisions : pou.counts.decisions = (nodes.map Node.decisions).sum :=
    tallied.decisions.trans (total_singleton ..)
  have cyclomatic := gives.cyclomatic
  have operators := gives.logical
  have none_passed :
      passed.countP Node.isLogical = 0 ↔ ∀ node ∈ passed, node.isLogical = false := by
    simp [List.countP_eq_zero]
  refine ⟨by omega, logical, ?_⟩
  rw [← none_passed]
  omega

/-- `FOR i := 1 TO a AND b DO END_FOR` -/
def maskedBound : Pou Mark where
  tag := ⟨0, .lines 1 3⟩
  kind := .program
  name := "Main"
  body := [.forLoop ⟨1, .lines 2 3⟩ { tag := ⟨2, .line 2⟩, name := "i" }
    (.literal ⟨3, .line 2⟩ .integer "1")
    (.binary ⟨4, .line 2⟩ .and (.variable ⟨5, .line 2⟩ "a" [] [] false)
      (.variable ⟨6, .line 2⟩ "b" [] [] false)) none []]

/-- The operator in the bound of the loop is among the nodes of the unit and not among the counted
ones. -/
theorem maskedBound_uncounted :
    (Node.pou maskedBound).listing.countP Node.isLogical = 1 ∧
    ((Node.pou maskedBound).listing.map Node.decisions).sum = 1 ∧
    maskedBound.complexity.logicalOperators = 0 ∧ maskedBound.complexity.cyclomatic = 2 := by
  decide

end PlcAudit.Code
