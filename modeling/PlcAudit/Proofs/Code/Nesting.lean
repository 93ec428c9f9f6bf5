import Mathlib.Order.Bounds.Defs
import PlcAudit.Proofs.Code.Complexity

/-!
How deep bodies are nested. A body is nested in another if it belongs to a statement of that body or
of one nested in it; an empty body counts like any other. The nesting depth of a unit is the length
of the longest row of nested bodies.
-/

namespace PlcAudit.Code

/-! Nested bodies -/

/-- The bodies of a control structure. -/
def Stmt.bodies : Stmt Mark → List (List (Stmt Mark))
  | .cond _ _ thenBody elsifs elseBody => thenBody :: elsifs.map Clause.body ++ elseBody.toList
  | .select _ _ elements elseBody => elements.map Element.body ++ elseBody.toList
  | .forLoop _ _ _ _ _ body | .whileLoop _ _ body | .repeatLoop _ body _ => [body]
  | _ => []

/-- Bodies inside one another: each belongs to a statement of the body before it. -/
inductive NestedBodies : List (Stmt Mark) → List (List (Stmt Mark)) → Prop where
  | nil : NestedBodies body []
  | cons (member : stmt ∈ body) (inner : first ∈ stmt.bodies) (deeper : NestedBodies first rest) :
      NestedBodies body (first :: rest)

/-- The largest of some numbers, or 0 if there are none. -/
structure IsPeak (values : List Nat) (peak : Nat) : Prop where
  bound : ∀ value ∈ values, value ≤ peak
  attained : peak = 0 ∨ peak ∈ values

namespace IsPeak

variable {values others : List Nat} {peak other : Nat}

theorem nil : IsPeak [] 0 := ⟨by simp, .inl rfl⟩

theorem single (value : Nat) : IsPeak [value] value := ⟨by simp, .inr (List.mem_singleton.mpr rfl)⟩

theorem append (front : IsPeak values peak) (back : IsPeak others other) :
    IsPeak (values ++ others) (max peak other) where
  bound value member := by
    rcases List.mem_append.mp member with early | late
    · exact Nat.le_trans (front.bound value early) (Nat.le_max_left ..)
    · exact Nat.le_trans (back.bound value late) (Nat.le_max_right ..)
  attained := by
    rw [List.mem_append]
    rcases Nat.le_total peak other with less | more
    · rw [Nat.max_eq_right less]
      exact back.attained.imp id .inr
    · rw [Nat.max_eq_left more]
      exact front.attained.imp id .inl

end IsPeak

section Depth

variable (depth : Nat)

/-- The deepest body that a body inside `depth` control structures is or holds. -/
def bodyDepth (body : List (Stmt Mark)) : Nat :=
  max (depth + 1) (Stmt.countsAll (depth + 1) body).deepest

theorem Clause.counts_peak (clauses : List (Clause Mark)) :
    IsPeak ((clauses.map Clause.body).map (bodyDepth depth))
      (Clause.counts depth clauses).deepest := by
  induction clauses with
  | nil =>
    rw [Clause.counts]
    exact .nil
  | cons clause rest ih =>
    obtain ⟨span, condition, body⟩ := clause
    rw [Clause.counts]
    simpa [bodyDepth, Clause.body, Counts.nested] using
      (IsPeak.single (bodyDepth depth body)).append ih

theorem Element.counts_peak (elements : List (Element Mark)) :
    IsPeak ((elements.map Element.body).map (bodyDepth depth))
      (Element.counts depth elements).deepest := by
  induction elements with
  | nil =>
    rw [Element.counts]
    exact .nil
  | cons element rest ih =>
    obtain ⟨labels, body⟩ := element
    rw [Element.counts]
    exact (IsPeak.single (bodyDepth depth body)).append ih

theorem Stmt.countsOption_peak (body : Option (List (Stmt Mark))) :
    IsPeak (body.toList.map (bodyDepth depth)) (Stmt.countsOption depth body).deepest := by
  cases body with
  | none =>
    rw [Stmt.countsOption]
    exact .nil
  | some body =>
    rw [Stmt.countsOption]
    exact .single _

theorem Stmt.counts_peak (stmt : Stmt Mark) :
    IsPeak (stmt.bodies.map (bodyDepth depth)) (stmt.counts depth).deepest := by
  have parts : (stmt.counts depth).deepest = (stmt.partCounts depth).deepest := by
    rw [stmt.counts_eq, Counts.deepest_add, Node.own, Nat.zero_max]
  rw [parts]
  cases stmt with
  | cond _ condition thenBody elsifs elseBody =>
    have bodies := ((IsPeak.single (bodyDepth depth thenBody)).append
      (Clause.counts_peak depth elsifs)).append (Stmt.countsOption_peak depth elseBody)
    simpa [partCounts, Stmt.bodies, bodyDepth, Counts.nested] using bodies
  | select _ selector elements elseBody =>
    have bodies :=
      (Element.counts_peak depth elements).append (Stmt.countsOption_peak depth elseBody)
    simpa [partCounts, Stmt.bodies] using bodies
  | forLoop _ _ _ _ _ body => exact .single (bodyDepth depth body)
  | whileLoop _ _ body | repeatLoop _ body _ =>
    simpa [partCounts, Stmt.bodies, bodyDepth, Counts.nested] using
      IsPeak.single (bodyDepth depth body)
  | assign | exit | return_ | call => exact .nil

theorem Stmt.countsAll_peak (body : List (Stmt Mark)) :
    IsPeak (body.map fun stmt => (stmt.counts depth).deepest)
      (Stmt.countsAll depth body).deepest := by
  induction body with
  | nil =>
    rw [Stmt.countsAll]
    exact .nil
  | cons stmt rest ih =>
    rw [Stmt.countsAll]
    exact (IsPeak.single _).append ih

end Depth

/-- A body that is reached is counted. -/
theorem bodyDepth_le {body inner : List (Stmt Mark)} {stmt : Stmt Mark} (member : stmt ∈ body)
    (isBody : inner ∈ stmt.bodies) (depth : Nat) :
    bodyDepth depth inner ≤ (Stmt.countsAll depth body).deepest :=
  Nat.le_trans ((stmt.counts_peak depth).bound _ (List.mem_map_of_mem isBody))
    ((Stmt.countsAll_peak depth body).bound _ (List.mem_map_of_mem member))

theorem NestedBodies.length_le {body : List (Stmt Mark)} {chain : List (List (Stmt Mark))}
    (nested : NestedBodies body chain) (depth : Nat) :
    depth + chain.length ≤ max depth (Stmt.countsAll depth body).deepest := by
  induction nested generalizing depth with
  | nil => exact Nat.le_max_left ..
  | @cons body stmt first rest member inner deeper ih =>
    calc depth + (first :: rest).length = depth + 1 + rest.length := by
          rw [List.length_cons]; omega
      _ ≤ bodyDepth depth first := ih (depth + 1)
      _ ≤ (Stmt.countsAll depth body).deepest := bodyDepth_le member inner depth
      _ ≤ max depth (Stmt.countsAll depth body).deepest := Nat.le_max_right ..

theorem Stmt.mem_children_of_bodies {stmt inner : Stmt Mark} {body : List (Stmt Mark)}
    (isBody : body ∈ stmt.bodies) (member : inner ∈ body) : Node.stmt inner ∈ stmt.children := by
  cases stmt with
  | cond _ condition thenBody elsifs elseBody =>
    simp only [bodies, List.cons_append, List.mem_append, List.mem_cons, List.mem_map,
      Option.mem_toList] at isBody
    rcases isBody with rfl | ⟨clause, listed, rfl⟩ | rfl
    · simp [children, member]
    · simp only [children, List.mem_append, List.mem_flatMap]
      exact .inl (.inr ⟨clause, listed, by simp [member]⟩)
    · simp [children, member]
  | select _ selector elements elseBody =>
    simp only [bodies, List.mem_append, List.mem_map, Option.mem_toList] at isBody
    rcases isBody with ⟨element, listed, rfl⟩ | rfl
    · simp only [children, List.cons_append, List.mem_cons, List.mem_append, List.mem_flatMap]
      exact .inr (.inl ⟨element, listed, by simp [member]⟩)
    · simp [children, member]
  | forLoop | whileLoop | repeatLoop =>
    obtain rfl := List.mem_singleton.mp isBody
    simp [children, member]
  | assign | exit | return_ | call => cases isBody

/-- Either nothing is counted for the statement, or some bodies inside it are nested as deep as is
counted. -/
def Stmt.Reached (stmt : Stmt Mark) (depth : Nat) : Prop :=
  (stmt.counts depth).deepest = 0 ∨ ∃ first ∈ stmt.bodies, ∃ rest, NestedBodies first rest ∧
    depth + 1 + rest.length = (stmt.counts depth).deepest

theorem exists_nestedBodies (body : List (Stmt Mark)) (depth : Nat)
    (each : ∀ stmt ∈ body, stmt.Reached depth) :
    ∃ chain, NestedBodies body chain ∧
      depth + chain.length = max depth (Stmt.countsAll depth body).deepest := by
  rcases (Stmt.countsAll_peak depth body).attained with zero | attained
  · exact ⟨[], .nil, by rw [zero]; simp⟩
  · obtain ⟨stmt, member, same⟩ := List.mem_map.mp attained
    rcases each stmt member with zero | ⟨first, inner, rest, nested, length⟩
    · exact ⟨[], .nil, by rw [← same, zero]; simp⟩
    · refine ⟨first :: rest, .cons member inner nested, ?_⟩
      rw [← same, ← length, List.length_cons]
      omega

theorem Stmt.reached (stmt : Stmt Mark) (depth : Nat) : stmt.Reached depth := by
  generalize whole : Node.stmt stmt = node
  induction node using Node.parts_induction generalizing stmt depth with
  | step node parts =>
    subst whole
    -- The body that attains the peak is followed down; its statements are parts of this one.
    refine (stmt.counts_peak depth).attained.imp id fun attained => ?_
    obtain ⟨first, inner, same⟩ := List.mem_map.mp attained
    obtain ⟨rest, nested, length⟩ := exists_nestedBodies first (depth + 1)
      fun part member => parts _ (Stmt.mem_children_of_bodies inner member) part _ rfl
    exact ⟨first, inner, rest, nested, length.trans same⟩

/-- The deepest level counted for a body is the number of bodies that are nested in it. -/
theorem Stmt.deepest_isGreatest (body : List (Stmt Mark)) :
    IsGreatest {depth | ∃ chain, NestedBodies body chain ∧ chain.length = depth}
      (Stmt.countsAll 0 body).deepest := by
  constructor
  · obtain ⟨chain, nested, length⟩ := exists_nestedBodies body 0 fun stmt _ => stmt.reached 0
    exact ⟨chain, nested, by simpa using length⟩
  · rintro _ ⟨chain, nested, rfl⟩
    simpa using nested.length_le 0

/-! Units -/

/-- Initial values open no scope. -/
theorem Pou.counts_deepest (pou : Pou Mark) :
    pou.counts.deepest = (Stmt.countsAll 0 pou.body).deepest :=
  Nat.zero_max _

/-- The measures of a unit are those of its tree: its statements, loops, RETURN statements and
decisions at all depths, the most bodies inside one another, and the decisions weighed by the
control structures around them. -/
theorem Pou.complexity_of_tree (pou : Pou Mark) :
    let nodes := (Node.pou pou).listing
    pou.complexity.statementCount = nodes.countP Node.isStatement ∧
    pou.complexity.loopCount = nodes.countP Node.isLoop ∧
    pou.complexity.returnPoints = nodes.countP Node.isReturn ∧
    pou.complexity.decisionPoints = (nodes.map Node.decisions).sum ∧
    IsGreatest {depth | ∃ chain, NestedBodies pou.body chain ∧ chain.length = depth}
      pou.complexity.nestingDepth ∧
    pou.complexity.cyclomatic =
      1 + pou.complexity.decisionPoints + pou.complexity.logicalOperators ∧
    pou.complexity.cognitive = pou.complexity.logicalOperators +
      (((Node.pou pou).lineages []).map fun lineage =>
        lineage.node.decisions * (1 + lineage.around.countP Node.isControl)).sum := by
  intro nodes
  have tallied := pou.counts_tallies
  have gives := pou.complexity_gives
  refine ⟨?_, ?_, ?_, ?_, ?_, ?_, ?_⟩
  · exact gives.statements.trans (tallied.statements.trans (total_toNat ..))
  · exact gives.loops.trans (tallied.loops.trans (total_toNat ..))
  · exact gives.returns.trans (tallied.returns.trans (total_toNat ..))
  · exact gives.decisions.trans (tallied.decisions.trans (total_singleton ..))
  · rw [gives.deepest, pou.counts_deepest]
    exact Stmt.deepest_isGreatest pou.body
  · rw [gives.cyclomatic, gives.decisions, gives.logical]
  · have weighted := tallied.weighted
    rw [weightOf, List.flatMap_singleton] at weighted
    rw [gives.cognitive, gives.logical, weighted, Nat.add_comm]
    rfl

end PlcAudit.Code
