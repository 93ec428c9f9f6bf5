import PlcAudit.Proofs.Flow.ControlFlow

/-!
How deep statements are nested. The conditional depth of a statement is the number of IF and CASE
statements around it, in live and dead code alike. Its loop depth misses one kind of loop: the body
of a WHILE whose condition is always false is walked as dead code, and not as the body of a loop.
-/

namespace PlcAudit.Flow

open Code

def isConditional : Stmt Mark → Bool
  | .cond .. | .select .. => true
  | _ => false

/-- A WHILE loop whose condition is always false. -/
def isIdle (constants : Constants) : Stmt Mark → Bool
  | .whileLoop _ condition _ => foldCondition constants condition == some false
  | _ => false

/-- A loop whose body may run. -/
def turns (constants : Constants) (stmt : Stmt Mark) : Bool :=
  stmt.isLoop && !isIdle constants stmt

/-- A statement stands somewhere inside another. -/
def isAround (stmt outer : Stmt Mark) : Bool :=
  (partIds (stmtParts outer).tail).contains stmt.tag.id

/-- How many statements of a kind are around a statement. -/
def countAround (kind : Stmt Mark → Bool) (parts : List (Stmt Mark)) (stmt : Stmt Mark) : Nat :=
  parts.countP fun outer => kind outer && isAround stmt outer

/-! Parts of statements -/

/-- Statements that come with all that is inside them. -/
def PartsClosed (parts : List (Stmt Mark)) : Prop :=
  ∀ outer ∈ parts, stmtParts outer ⊆ parts

theorem PartsClosed.nil : PartsClosed [] := fun _ member => absurd member List.not_mem_nil

theorem PartsClosed.append {first second : List (Stmt Mark)} (front : PartsClosed first)
    (back : PartsClosed second) : PartsClosed (first ++ second) := by
  intro outer member part inside
  rcases List.mem_append.mp member with early | late
  · exact List.mem_append_left _ (front outer early inside)
  · exact List.mem_append_right _ (back outer late inside)

theorem PartsClosed.around {stmt : Stmt Mark} {parts : List (Stmt Mark)}
    (whole : stmtParts stmt = stmt :: parts) (closed : PartsClosed parts) :
    PartsClosed (stmtParts stmt) := by
  intro outer member
  rw [whole] at member
  rcases List.mem_cons.mp member with same | inner
  · rw [same]
    exact List.Subset.refl _
  · rw [whole]
    exact List.Subset.trans (closed outer inner) (List.subset_cons_self ..)

mutual

theorem stmtParts_closed : ∀ stmt, PartsClosed (stmtParts stmt)
  | .cond tag condition thenBody elsifs elseBody =>
    .around (by rw [stmtParts]) (((blockParts_closed thenBody).append
      (clauseParts_closed elsifs)).append (elseParts_closed elseBody))
  | .select tag selector elements elseBody =>
    .around (by rw [stmtParts]) ((elementParts_closed elements).append (elseParts_closed elseBody))
  | .forLoop _ _ _ _ _ body => .around (by rw [stmtParts]) (blockParts_closed body)
  | .whileLoop _ _ body => .around (by rw [stmtParts]) (blockParts_closed body)
  | .repeatLoop _ body _ => .around (by rw [stmtParts]) (blockParts_closed body)
  | .assign .. | .exit _ | .return_ _ | .call .. => .around (by rw [stmtParts]) .nil

theorem blockParts_closed : ∀ body, PartsClosed (blockParts body)
  | [] => by rw [blockParts]; exact .nil
  | stmt :: rest => by
    rw [blockParts]
    exact (stmtParts_closed stmt).append (blockParts_closed rest)

theorem clauseParts_closed : ∀ elsifs, PartsClosed (clauseParts elsifs)
  | [] => by rw [clauseParts]; exact .nil
  | .mk span condition body :: rest => by
    rw [clauseParts]
    exact (blockParts_closed body).append (clauseParts_closed rest)

theorem elementParts_closed : ∀ elements, PartsClosed (elementParts elements)
  | [] => by rw [elementParts]; exact .nil
  | .mk labels body :: rest => by
    rw [elementParts]
    exact (blockParts_closed body).append (elementParts_closed rest)

theorem elseParts_closed : ∀ elseBody, PartsClosed (elseParts elseBody)
  | none => by rw [elseParts]; exact .nil
  | some body => by rw [elseParts]; exact blockParts_closed body

end

theorem nodup_partIds_cons {stmt : Stmt Mark} {parts : List (Stmt Mark)}
    (distinct : (partIds (stmt :: parts)).Nodup) : (partIds parts).Nodup :=
  (List.nodup_cons.mp distinct).2

theorem nodup_partIds_append {first second : List (Stmt Mark)}
    (distinct : (partIds (first ++ second)).Nodup) :
    (partIds first).Nodup ∧ (partIds second).Nodup := by
  rw [partIds_append, List.nodup_append] at distinct
  exact ⟨distinct.1, distinct.2.1⟩

/-! Counting what is around a statement -/

section Count

variable {kind : Stmt Mark → Bool} {parts first second : List (Stmt Mark)} {stmt : Stmt Mark}

/-- Nothing that is apart from a statement is around it. -/
theorem countAround_eq_zero (closed : PartsClosed parts) (apart : stmt.tag.id ∉ partIds parts) :
    countAround kind parts stmt = 0 := by
  refine List.countP_eq_zero.mpr fun outer member counted => ?_
  have inside := List.contains_iff_mem.mp (Bool.and_eq_true_iff.mp counted).2
  have all : (stmtParts outer).tail ⊆ parts :=
    List.Subset.trans (List.tail_sublist _).subset (closed outer member)
  exact apart (List.map_subset _ all inside)

theorem countAround_append :
    countAround kind (first ++ second) stmt =
      countAround kind first stmt + countAround kind second stmt :=
  List.countP_append ..

theorem isAround_iff {outer : Stmt Mark} (whole : stmtParts outer = outer :: parts) :
    isAround stmt outer = true ↔ stmt.tag.id ∈ partIds parts := by
  rw [isAround, whole, List.contains_iff_mem, List.tail_cons]

/-- A statement counts for all that is inside it. -/
theorem countAround_cons {outer : Stmt Mark} :
    countAround kind (outer :: parts) stmt =
      countAround kind parts stmt + (kind outer && isAround stmt outer).toNat := by
  rw [countAround, List.countP_cons, countAround]
  cases kind outer && isAround stmt outer <;> rfl

/-- The loops around a statement are those that may turn and those that never do. -/
theorem countAround_loops (constants : Constants) :
    countAround (turns constants) parts stmt + countAround (isIdle constants) parts stmt =
      countAround Stmt.isLoop parts stmt := by
  induction parts with
  | nil => rfl
  | cons outer rest ih =>
    have loop : isIdle constants outer = true → outer.isLoop = true := by
      cases outer <;> simp [isIdle, Stmt.isLoop]
    simp only [countAround, List.countP_cons, turns] at ih ⊢
    cases idle : isIdle constants outer with
    | false => cases outer.isLoop <;> cases isAround stmt outer <;> simp <;> omega
    | true => cases isAround stmt outer <;> simp [loop idle] <;> omega

end Count

/-! Depths that the pass notes -/

/-- The identity of a noted statement with its depths in loops and in conditionals. -/
def notedDepths (facts : List Fact) : List (Nat × Nat × Nat) :=
  (facts.filterMap Fact.statement?).map fun (id, info) =>
    (id, info.loopDepth, info.conditionalDepth)

theorem notedDepths_of_unnoted {facts : List Fact} (unnoted : notedIds facts = []) :
    notedDepths facts = [] := by
  rw [notedDepths, List.map_eq_nil_iff.mp unnoted]
  rfl

@[simp] theorem notedDepths_nil : notedDepths [] = [] := rfl

@[simp] theorem notedDepths_append (first second : List Fact) :
    notedDepths (first ++ second) = notedDepths first ++ notedDepths second := by
  simp [notedDepths]

@[simp] theorem notedDepths_statement (id : Nat) (info : ControlFlow) (facts : List Fact) :
    notedDepths (.statement id info :: facts) =
      (id, info.loopDepth, info.conditionalDepth) :: notedDepths facts := rfl

@[simp] theorem notedDepths_observe (reachable : Bool) (assigned : Names)
    (accesses : List Access) : notedDepths (observe reachable assigned accesses).1 = [] :=
  notedDepths_of_unnoted (notedIds_observe ..)

@[simp] theorem notedDepths_deadFact (context : Context) (kind : DeadKind)
    (startLine endLine : Nat) (description : String) :
    notedDepths (context.deadFact kind startLine endLine description) = [] :=
  notedDepths_of_unnoted (notedIds_deadFact ..)

theorem Branches.notedDepths_add (branches : Branches) (context : Context)
    (constant : Option Bool) (line : Nat) (body : List (Stmt Mark)) (outcome : Outcome) :
    notedDepths (branches.add context constant line body outcome).facts =
      notedDepths branches.facts ++ notedDepths outcome.facts := by
  unfold add
  split
  · simp [note]
  · split <;> simp [note, join]

namespace Context

/-- The depths of a statement among the parts of a piece of code in this context. -/
def placed (context : Context) (parts : List (Stmt Mark)) (stmt : Stmt Mark) : Nat × Nat × Nat :=
  (stmt.tag.id, context.loopDepth + countAround (turns context.constants) parts stmt,
    context.conditionalDepth + countAround isConditional parts stmt)

/-- The depths of all parts of a piece of code in this context. -/
def depths (context : Context) (parts : List (Stmt Mark)) : List (Nat × Nat × Nat) :=
  parts.map (context.placed parts)

variable {context : Context} {parts first second : List (Stmt Mark)} {stmt : Stmt Mark}

@[simp] theorem depths_only (live : Bool) (parts : List (Stmt Mark)) :
    (context.only live).depths parts = context.depths parts := rfl

/-- Pieces that stand side by side are not around each other. -/
theorem depths_append (front : PartsClosed first) (back : PartsClosed second)
    (distinct : (partIds (first ++ second)).Nodup) :
    context.depths (first ++ second) = context.depths first ++ context.depths second := by
  rw [partIds_append, List.nodup_append] at distinct
  have apart := distinct.2.2
  rw [depths, List.map_append]
  congr 1
  · refine List.map_congr_left fun part member => ?_
    have here : part.tag.id ∈ partIds first := List.mem_map_of_mem member
    have elsewhere : part.tag.id ∉ partIds second := fun there => apart _ here _ there rfl
    simp [placed, countAround_append, countAround_eq_zero back elsewhere]
  · refine List.map_congr_left fun part member => ?_
    have there : part.tag.id ∈ partIds second := List.mem_map_of_mem member
    have elsewhere : part.tag.id ∉ partIds first := fun here => apart _ here _ there rfl
    simp [placed, countAround_append, countAround_eq_zero front elsewhere]

/-- A statement is around all that is inside it and not around itself. -/
theorem depths_around (context inner : Context) (whole : stmtParts stmt = stmt :: parts)
    (closed : PartsClosed parts) (distinct : (partIds (stmtParts stmt)).Nodup)
    (constants : inner.constants = context.constants)
    (loops : inner.loopDepth = context.loopDepth + (turns context.constants stmt).toNat)
    (conditionals : inner.conditionalDepth =
      context.conditionalDepth + (isConditional stmt).toNat) :
    context.depths (stmtParts stmt) =
      (stmt.tag.id, context.loopDepth, context.conditionalDepth) :: inner.depths parts := by
  have apart : stmt.tag.id ∉ partIds parts := by
    rw [whole] at distinct
    exact (List.nodup_cons.mp distinct).1
  rw [depths, whole, List.map_cons]
  congr 1
  · have outside : isAround stmt stmt = false :=
      Bool.eq_false_iff.mpr fun around => apart ((isAround_iff whole).mp around)
    simp [placed, countAround_cons, outside, countAround_eq_zero closed apart]
  · refine List.map_congr_left fun part member => ?_
    have inside : part.tag.id ∈ partIds parts := List.mem_map_of_mem member
    simp only [placed, countAround_cons, (isAround_iff whole).mpr inside, Bool.and_true,
      constants, loops, conditionals]
    simp only [Prod.mk.injEq, true_and]
    omega

end Context

mutual

/-- The pass notes the depths of every statement inside a statement, in order. -/
theorem stmt_depths (context : Context) (assigned : Names) :
    ∀ stmt, (partIds (stmtParts stmt)).Nodup →
      (stmt.tag.id, context.loopDepth, context.conditionalDepth) ::
        notedDepths (stmtFlow context assigned stmt).facts = context.depths (stmtParts stmt)
  | .cond tag condition thenBody elsifs elseBody, distinct => by
    have closed := (blockParts_closed thenBody).append (clauseParts_closed elsifs)
    rw [context.depths_around context.inConditional (by rw [stmtParts])
      (closed.append (elseParts_closed elseBody)) distinct rfl rfl rfl]
    rw [stmtParts] at distinct
    have inside := nodup_partIds_cons distinct
    obtain ⟨front, inElse⟩ := nodup_partIds_append inside
    obtain ⟨inThen, inClauses⟩ := nodup_partIds_append front
    rw [Context.depths_append closed (elseParts_closed elseBody) inside,
      Context.depths_append (blockParts_closed thenBody) (clauseParts_closed elsifs) front]
    simp only [stmtFlow, Branches.outcome, else_depths _ _ _ _ elseBody inElse,
      clauses_depths _ _ _ elsifs inClauses, Branches.notedDepths_add,
      block_depths _ _ thenBody inThen, notedDepths_observe, List.nil_append, Context.depths_only]
  | .select tag selector elements elseBody, distinct => by
    rw [context.depths_around context.inConditional (by rw [stmtParts])
      ((elementParts_closed elements).append (elseParts_closed elseBody)) distinct rfl rfl rfl]
    rw [stmtParts] at distinct
    have inside := nodup_partIds_cons distinct
    obtain ⟨inElements, inElse⟩ := nodup_partIds_append inside
    rw [Context.depths_append (elementParts_closed elements) (elseParts_closed elseBody) inside]
    simp only [stmtFlow, Branches.outcome, else_depths _ _ _ _ elseBody inElse,
      elements_depths _ _ _ elements inElements, notedDepths_observe, List.nil_append]
  | .forLoop tag counter start stop step body, distinct => by
    rw [context.depths_around context.inLoop (by rw [stmtParts]) (blockParts_closed body) distinct
      rfl rfl rfl]
    rw [stmtParts] at distinct
    simp only [stmtFlow, notedDepths_append, notedDepths_observe, List.nil_append,
      block_depths _ _ body (nodup_partIds_cons distinct)]
  | .whileLoop tag condition body, distinct => by
    have inside : (partIds (blockParts body)).Nodup := by
      rw [stmtParts] at distinct
      exact nodup_partIds_cons distinct
    simp only [stmtFlow]
    split
    · rename_i closed
      -- The body is walked at the depth of the loop itself.
      rw [context.depths_around context (by rw [stmtParts]) (blockParts_closed body) distinct rfl
        (by simp [turns, isIdle, closed]) rfl]
      simp only [notedDepths_append, notedDepths_observe, notedDepths_deadFact, List.nil_append,
        block_depths _ _ body inside, Context.depths_only]
    · rename_i open_
      rw [context.depths_around context.inLoop (by rw [stmtParts]) (blockParts_closed body) distinct
        rfl (by simp [turns, isIdle, beq_false_of_ne open_, Stmt.isLoop, Context.inLoop]) rfl]
      simp only [notedDepths_append, notedDepths_observe, List.nil_append,
        block_depths _ _ body inside]
  | .repeatLoop tag body until_, distinct => by
    rw [context.depths_around context.inLoop (by rw [stmtParts]) (blockParts_closed body) distinct
      rfl rfl rfl]
    rw [stmtParts] at distinct
    simp only [stmtFlow, notedDepths_append, notedDepths_observe, List.append_nil,
      block_depths _ _ body (nodup_partIds_cons distinct)]
  | .assign .., distinct | .exit _, distinct | .return_ _, distinct | .call .., distinct => by
    rw [context.depths_around context (by rw [stmtParts]) .nil distinct rfl rfl rfl]
    simp [stmtFlow, Context.depths]

theorem block_depths (context : Context) (assigned : Names) :
    ∀ body, (partIds (blockParts body)).Nodup →
      notedDepths (blockFlow context assigned body).facts = context.depths (blockParts body)
  | [], _ => by
    simp only [blockFlow, blockParts]
    rfl
  | stmt :: rest, distinct => by
    rw [blockParts] at distinct ⊢
    rw [Context.depths_append (stmtParts_closed stmt) (blockParts_closed rest) distinct]
    obtain ⟨first, later⟩ := nodup_partIds_append distinct
    rw [← stmt_depths context assigned stmt first]
    simp only [blockFlow]
    split
    · split
      · rename_i empty
        have last := List.isEmpty_iff.mp empty
        subst rest
        simp [blockParts, Context.depths, Context.info]
      · simp [block_depths _ _ rest later, Context.info]
    · simp [block_depths _ _ rest later, Context.info]

theorem clauses_depths (context : Context) (before : Names) (branches : Branches) :
    ∀ elsifs, (partIds (clauseParts elsifs)).Nodup →
      notedDepths (clauseFlow context before branches elsifs).facts =
        notedDepths branches.facts ++ context.depths (clauseParts elsifs)
  | [], _ => by simp [clauseFlow, clauseParts, Context.depths]
  | .mk span condition body :: rest, distinct => by
    rw [clauseParts] at distinct ⊢
    rw [Context.depths_append (blockParts_closed body) (clauseParts_closed rest) distinct]
    obtain ⟨first, later⟩ := nodup_partIds_append distinct
    simp only [clauseFlow, clauses_depths _ _ _ rest later, Branches.notedDepths_add,
      block_depths _ _ body first, Context.depths_only, List.append_assoc]
    split
    · simp [Branches.note]
    · rfl

theorem elements_depths (context : Context) (before : Names) (branches : Branches) :
    ∀ elements, (partIds (elementParts elements)).Nodup →
      notedDepths (elementFlow context before branches elements).facts =
        notedDepths branches.facts ++ context.depths (elementParts elements)
  | [], _ => by simp [elementFlow, elementParts, Context.depths]
  | .mk labels body :: rest, distinct => by
    rw [elementParts] at distinct ⊢
    rw [Context.depths_append (blockParts_closed body) (elementParts_closed rest) distinct]
    obtain ⟨first, later⟩ := nodup_partIds_append distinct
    simp only [elementFlow, elements_depths _ _ _ rest later, Branches.join,
      notedDepths_append, block_depths _ _ body first, List.append_assoc]

theorem else_depths (context : Context) (before : Names) (line : Nat) (branches : Branches) :
    ∀ elseBody, (partIds (elseParts elseBody)).Nodup →
      notedDepths (elseFlow context before line branches elseBody).facts =
        notedDepths branches.facts ++ context.depths (elseParts elseBody)
  | none, _ => by
    simp only [elseFlow, elseParts]
    split <;> simp [Branches.skip, Context.depths]
  | some body, distinct => by
    rw [elseParts] at distinct ⊢
    simp only [elseFlow]
    split
    · simp [Branches.note, block_depths _ _ body distinct]
    · simp [Branches.join, block_depths _ _ body distinct]

end

/-! Units -/

theorem notedDepths_pouFacts {pou : Pou Mark}
    (distinct : (partIds (blockParts pou.body)).Nodup) :
    notedDepths (pouFacts pou) =
      Context.depths { constants := (declarations pou).constants } (blockParts pou.body) := by
  rw [pouFacts_eq, notedDepths_append, notedDepths_of_unnoted (notedIds_declarations pou),
    List.nil_append, bodyFlow, block_depths _ _ _ distinct]

/-- Of statements with distinct identities, each is recorded with the number of IF and CASE
statements around it. The loops around it are those that are recorded and those that never turn. -/
theorem nesting_depths {strict : Bool} {file : String} {pou : Pou Mark} {flow : PouFlow}
    (analyzed : analyzePou strict file pou = .ok flow)
    (distinct : (partIds (blockParts pou.body)).Nodup) :
    ∀ stmt ∈ blockParts pou.body, ∃ info, flow.controlFlow.find? stmt.tag.id = some info ∧
      info.conditionalDepth = countAround isConditional (blockParts pou.body) stmt ∧
      info.loopDepth +
          countAround (isIdle (declarations pou).constants) (blockParts pou.body) stmt =
        countAround Stmt.isLoop (blockParts pou.body) stmt := by
  rw [analyzePou_eq_ok analyzed]
  intro stmt member
  let context : Context := { constants := (declarations pou).constants }
  have placed : context.placed (blockParts pou.body) stmt ∈ notedDepths (pouFacts pou) := by
    rw [notedDepths_pouFacts distinct]
    exact List.mem_map_of_mem member
  obtain ⟨⟨id, info⟩, listed, same⟩ := List.mem_map.mp placed
  obtain ⟨fact, noted, shown⟩ := List.mem_filterMap.mp listed
  cases fact <;> cases shown
  simp only [Context.placed, context, Nat.zero_add, Prod.mk.injEq] at same
  obtain ⟨rfl, loops, conditionals⟩ := same
  refine ⟨info, find?_controlFlow_of_noted strict file distinct noted, conditionals, ?_⟩
  rw [loops, countAround_loops]

/-- `WHILE FALSE DO IF a THEN x := 1; END_IF END_WHILE` -/
def idleLoop : Pou Mark where
  tag := ⟨0, .lines 1 6⟩
  kind := .program
  name := "Main"
  body := [.whileLoop ⟨1, .lines 2 6⟩ (.literal ⟨2, .line 2⟩ .boolean "FALSE")
    [.cond ⟨3, .lines 3 5⟩ (.variable ⟨4, .line 3⟩ "a" [] [] false)
      [.assign ⟨5, .line 4⟩ { tag := ⟨6, .line 4⟩, name := "x" }
        (.literal ⟨7, .line 4⟩ .integer "1")] [] none]]

theorem nesting_depths_idleLoop : ∃ flow, analyzePou false "main.st" idleLoop = .ok flow ∧
    (partIds (blockParts idleLoop.body)).Nodup ∧
    ∀ stmt ∈ blockParts idleLoop.body, ∃ info, flow.controlFlow.find? stmt.tag.id = some info ∧
      info.conditionalDepth = countAround isConditional (blockParts idleLoop.body) stmt ∧
      info.loopDepth +
          countAround (isIdle (declarations idleLoop).constants) (blockParts idleLoop.body) stmt =
        countAround Stmt.isLoop (blockParts idleLoop.body) stmt := by
  have distinct : (partIds (blockParts idleLoop.body)).Nodup := by decide
  exact ⟨_, rfl, distinct, nesting_depths rfl distinct⟩

/-- A statement in a loop that never turns is recorded as if it stood in no loop. -/
theorem idleLoop_uncounted : ∃ flow, analyzePou false "main.st" idleLoop = .ok flow ∧
    (partIds (blockParts idleLoop.body)).Nodup ∧
    ∃ stmt ∈ blockParts idleLoop.body, ∃ info, flow.controlFlow.find? stmt.tag.id = some info ∧
      info.loopDepth = 0 ∧ countAround Stmt.isLoop (blockParts idleLoop.body) stmt = 1 := by
  refine ⟨_, rfl, by decide, .assign ⟨5, .line 4⟩ { tag := ⟨6, .line 4⟩, name := "x" }
    (.literal ⟨7, .line 4⟩ .integer "1"), ?_, ⟨false, 0, 1⟩, ?_, rfl, ?_⟩
  · simp [idleLoop, blockParts, stmtParts, clauseParts, elseParts]
  · decide
  · decide

end PlcAudit.Flow
