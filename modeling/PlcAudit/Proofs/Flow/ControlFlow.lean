import PlcAudit.Proofs.Flow.Declaration

/-!
The control flow table of a unit: one entry for each statement at every depth, and a reachable flag
that says whether a structural path executes the statement.
-/

namespace PlcAudit.Flow

open Code

/-- The statements that facts note, in order. -/
def notedIds (facts : List Fact) : List Nat := (facts.filterMap Fact.statement?).map Prod.fst

def partIds (parts : List (Stmt Mark)) : List Nat := parts.map (·.tag.id)

@[simp] theorem notedIds_nil : notedIds [] = [] := rfl

@[simp] theorem notedIds_append (first second : List Fact) :
    notedIds (first ++ second) = notedIds first ++ notedIds second := by
  simp [notedIds]

@[simp] theorem notedIds_statement (id : Nat) (info : ControlFlow) (facts : List Fact) :
    notedIds (.statement id info :: facts) = id :: notedIds facts := rfl

@[simp] theorem partIds_append (first second : List (Stmt Mark)) :
    partIds (first ++ second) = partIds first ++ partIds second := by
  simp [partIds]

@[simp] theorem notedIds_observe (reachable : Bool) (assigned : Names) (accesses : List Access) :
    notedIds (observe reachable assigned accesses).1 = [] := by
  induction accesses generalizing assigned with
  | nil => rfl
  | cons access rest ih =>
    rcases access with ⟨name, line⟩ | ⟨name, line⟩ | ⟨name, line⟩
    · exact ih assigned
    · exact ih _
    · exact ih assigned

@[simp] theorem notedIds_deadFact (context : Context) (kind : DeadKind) (startLine endLine : Nat)
    (description : String) :
    notedIds (context.deadFact kind startLine endLine description) = [] := by
  unfold Context.deadFact
  split <;> rfl

theorem Branches.notedIds_add (branches : Branches) (context : Context) (constant : Option Bool)
    (line : Nat) (body : List (Stmt Mark)) (outcome : Outcome) :
    notedIds (branches.add context constant line body outcome).facts =
      notedIds branches.facts ++ notedIds outcome.facts := by
  unfold add
  split
  · simp [note]
  · split <;> simp [note, join]

mutual

/-- The pass notes every statement inside a statement, in order and once. -/
theorem stmt_notes (context : Context) (assigned : Names) :
    ∀ stmt, stmt.tag.id :: notedIds (stmtFlow context assigned stmt).facts =
      partIds (stmtParts stmt)
  | .assign .. => by simp [stmtFlow, stmtParts, partIds]
  | .cond tag condition thenBody elsifs elseBody => by
    simp only [stmtFlow, Branches.outcome, else_notes, clauses_note, Branches.notedIds_add,
      block_notes, notedIds_observe, List.nil_append, stmtParts]
    simp [partIds]
  | .select tag selector elements elseBody => by
    simp only [stmtFlow, Branches.outcome, else_notes, elements_note, notedIds_observe,
      List.nil_append, stmtParts]
    simp [partIds]
  | .forLoop tag counter start stop step body => by
    simp only [stmtFlow, notedIds_append, notedIds_observe, block_notes, stmtParts]
    rfl
  | .whileLoop tag condition body => by
    simp only [stmtFlow, stmtParts]
    split
    · simp only [notedIds_append, notedIds_observe, notedIds_deadFact, block_notes]
      rfl
    · simp only [notedIds_append, notedIds_observe, block_notes]
      rfl
  | .repeatLoop tag body until_ => by
    simp only [stmtFlow, notedIds_append, notedIds_observe, block_notes, stmtParts,
      List.append_nil]
    rfl
  | .exit _ => by simp [stmtFlow, stmtParts, partIds]
  | .return_ _ => by simp [stmtFlow, stmtParts, partIds]
  | .call .. => by simp [stmtFlow, stmtParts, partIds]

theorem block_notes (context : Context) (assigned : Names) :
    ∀ body, notedIds (blockFlow context assigned body).facts = partIds (blockParts body)
  | [] => by
    simp only [blockFlow, blockParts]
    rfl
  | stmt :: rest => by
    have head := stmt_notes context assigned stmt
    simp only [blockFlow, blockParts, partIds_append, ← head]
    split
    · split
      · rename_i empty
        have last := List.isEmpty_iff.mp empty
        subst rest
        simp [blockParts, partIds]
      · simp [block_notes _ _ rest]
    · simp [block_notes _ _ rest]

theorem clauses_note (context : Context) (before : Names) (branches : Branches) :
    ∀ elsifs, notedIds (clauseFlow context before branches elsifs).facts =
      notedIds branches.facts ++ partIds (clauseParts elsifs)
  | [] => by simp [clauseFlow, clauseParts, partIds]
  | .mk span condition body :: rest => by
    simp only [clauseFlow, clauses_note _ _ _ rest, Branches.notedIds_add, block_notes _ _ body,
      clauseParts, partIds_append, List.append_assoc]
    split
    · simp [Branches.note]
    · rfl

theorem elements_note (context : Context) (before : Names) (branches : Branches) :
    ∀ elements, notedIds (elementFlow context before branches elements).facts =
      notedIds branches.facts ++ partIds (elementParts elements)
  | [] => by simp [elementFlow, elementParts, partIds]
  | .mk labels body :: rest => by
    simp only [elementFlow, elements_note _ _ _ rest, Branches.join, notedIds_append,
      block_notes _ _ body, elementParts, partIds_append, List.append_assoc]

theorem else_notes (context : Context) (before : Names) (line : Nat) (branches : Branches) :
    ∀ elseBody, notedIds (elseFlow context before line branches elseBody).facts =
      notedIds branches.facts ++ partIds (elseParts elseBody)
  | none => by
    simp only [elseFlow, elseParts]
    split <;> simp [Branches.skip, partIds]
  | some body => by
    simp only [elseFlow, elseParts]
    split
    · simp [Branches.note, block_notes _ _ body]
    · simp [Branches.join, block_notes _ _ body]

end

/-- Declarations note no statement. -/
theorem notedIds_declarations (pou : Pou Mark) : notedIds (declarations pou).facts = [] := by
  obtain ⟨facts, adds⟩ := declarations_add pou
  rw [adds.grown, List.nil_append, notedIds, List.filterMap_eq_nil_iff.mpr adds.unnoted]
  rfl

theorem notedIds_pouFacts (pou : Pou Mark) :
    notedIds (pouFacts pou) = partIds (blockParts pou.body) := by
  rw [pouFacts_eq, notedIds_append, notedIds_declarations, List.nil_append, bodyFlow, block_notes]

/-- Of statements with distinct identities, each keeps what the pass notes for it. -/
theorem find?_controlFlow_of_noted (strict : Bool) (file : String) {pou : Pou Mark}
    (distinct : (partIds (blockParts pou.body)).Nodup) {id : Nat} {info : ControlFlow}
    (noted : .statement id info ∈ pouFacts pou) :
    (pouFlow strict file pou).controlFlow.find? id = some info := by
  have apart : (notedIds (pouFacts pou)).Nodup := notedIds_pouFacts pou ▸ distinct
  rw [pouFlow_controlFlow]
  exact Table.find?_ofList apart (List.mem_filterMap.mpr ⟨_, noted, rfl⟩)

/-- The pass finds a statement reachable exactly when a path executes it. -/
theorem enters_iff_noted (pou : Pou Mark) (id : Nat) :
    (∃ trace, PouPath pou trace ∧ .enter id ∈ trace) ↔
      ∃ info, .statement id info ∈ pouFacts pou ∧ info.reachable = true := by
  constructor
  · rintro ⟨trace, ⟨inside, ending, path, rfl⟩, member⟩
    have entered := (List.mem_append.mp member).resolve_left not_enter_mem_accessed
    obtain ⟨info, noted, reachable⟩ := (body_noted path).visits id entered
    exact ⟨info, List.mem_append_right _ noted, reachable⟩
  · rintro ⟨info, noted, reachable⟩
    obtain ⟨facts, adds⟩ := declarations_add pou
    rcases List.mem_append.mp noted with early | inBody
    · rw [adds.grown, List.nil_append] at early
      exact absurd (adds.unnoted _ early) (by simp [Fact.statement?])
    · obtain ⟨inside, ending, path, entered⟩ :=
        body_happens pou _ inBody (.enter id) (by simp [Fact.event?, reachable])
      exact ⟨_, ⟨inside, ending, path, rfl⟩, List.mem_append_right _ entered⟩

/-- Of statements with distinct identities, each has one entry in the control flow table, and its
flag is set exactly when some structural path executes it. -/
theorem controlFlow_exact {strict : Bool} {file : String} {pou : Pou Mark} {flow : PouFlow}
    (analyzed : analyzePou strict file pou = .ok flow)
    (distinct : (partIds (blockParts pou.body)).Nodup) :
    flow.controlFlow.keys.Perm (partIds (blockParts pou.body)) ∧
      ∀ stmt ∈ blockParts pou.body, ∃ info, flow.controlFlow.find? stmt.tag.id = some info ∧
        (info.reachable = true ↔ ∃ trace, PouPath pou trace ∧ .enter stmt.tag.id ∈ trace) := by
  have table : flow.controlFlow = Table.ofList ((pouFacts pou).filterMap Fact.statement?) := by
    rw [analyzePou_eq_ok analyzed, pouFlow_controlFlow]
  have ids := notedIds_pouFacts pou
  have apart : (notedIds (pouFacts pou)).Nodup := ids ▸ distinct
  have found : ∀ id info, .statement id info ∈ pouFacts pou →
      flow.controlFlow.find? id = some info := fun id info member => by
    rw [table]
    exact Table.find?_ofList apart (List.mem_filterMap.mpr ⟨_, member, rfl⟩)
  constructor
  · apply (List.perm_ext_iff_of_nodup flow.controlFlow.keys_nodup distinct).mpr
    intro id
    rw [table, Table.mem_keys_ofList, ← ids]
    rfl
  · intro stmt member
    have noted : stmt.tag.id ∈ notedIds (pouFacts pou) := by
      rw [ids]
      exact List.mem_map_of_mem member
    obtain ⟨⟨id, info⟩, listed, same⟩ := List.mem_map.mp noted
    obtain ⟨fact, present, shown⟩ := List.mem_filterMap.mp listed
    cases fact <;> cases shown
    obtain rfl : id = stmt.tag.id := same
    refine ⟨info, found _ _ present, ?_⟩
    rw [enters_iff_noted]
    constructor
    · exact fun reachable => ⟨info, present, reachable⟩
    · rintro ⟨other, again, reachable⟩
      have equal := (found _ _ present).symm.trans (found _ _ again)
      rw [Option.some.inj equal]
      exact reachable

/-- `WHILE go DO EXIT; RETURN; END_WHILE` -/
def exitingLoop : Pou Mark where
  tag := ⟨0, .lines 1 4⟩
  kind := .program
  name := "Main"
  body := [.whileLoop ⟨1, .lines 2 4⟩ (.variable ⟨2, .line 2⟩ "go" [] [] false)
    [.exit ⟨3, .line 3⟩, .return_ ⟨4, .line 3⟩]]

theorem controlFlow_exact_exitingLoop : ∃ flow,
    analyzePou false "main.st" exitingLoop = .ok flow ∧ flow.controlFlow.keys.Perm [1, 3, 4] ∧
      ∀ stmt ∈ blockParts exitingLoop.body, ∃ info,
        flow.controlFlow.find? stmt.tag.id = some info ∧
        (info.reachable = true ↔
          ∃ trace, PouPath exitingLoop trace ∧ .enter stmt.tag.id ∈ trace) := by
  have distinct : (partIds (blockParts exitingLoop.body)).Nodup := by decide
  exact ⟨_, rfl, controlFlow_exact rfl distinct⟩

end PlcAudit.Flow
