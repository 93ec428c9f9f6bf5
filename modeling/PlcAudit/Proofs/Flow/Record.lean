import PlcAudit.Flow.Analysis
import PlcAudit.Proofs.Data.Table
import PlcAudit.Proofs.Flow.Exposure

/-!
Records made from facts one by one. A variable is reported exactly when an exposed read of it comes
behind a declaration that asks for an assignment, and the control flow of a statement is what the
pass noted for it.
-/

namespace PlcAudit.Flow

open Code

/-- What a fact notes of a statement. -/
def Fact.statement? : Fact → Option (Nat × ControlFlow)
  | .statement id info => some (id, info)
  | _ => none

/-- What a fact reports of code that never runs. -/
def Fact.deadCode? (file pouName : String) : Fact → Option DeadCode
  | .dead kind startLine endLine description =>
    some { kind, file, pouName, startLine, endLine, description }
  | _ => none

namespace Record

/-- Declared variables stand under their upper-cased names. -/
def Named (uses : Table String DefUse) : Prop :=
  ∀ key info, uses.find? key = some info → Text.upper info.name = key

/-- A change that keeps every name keeps the names under their keys. -/
theorem Named.modify {uses : Table String DefUse} {change : DefUse → DefUse} (named : Named uses)
    (changed : String) (keeps : ∀ info, (change info).name = info.name) :
    Named (uses.modify changed change) := by
  intro key info found
  obtain ⟨old, present, same | same⟩ := Table.find?_modify found
  · exact same ▸ named key old present
  · rw [same, keeps old]
    exact named key old present

/-- Tracked variables are declared, and what is reported is what the list of reads shows. -/
structure Consistent (record : Record) : Prop where
  named : Named record.flow.uses
  declared : ∀ key ∈ record.tracked, key ∈ record.flow.uses.keys
  reported : ∀ key, key ∈ record.reported ↔
    ∃ report ∈ record.flow.uninitializedReads, Text.upper report.name = key

variable {record : Record}

theorem Consistent.declare (known : record.Consistent) (strict : Bool) (block : VarBlock Mark)
    (decl : VarDecl Mark) : (record.declare strict block decl).Consistent where
  named := by
    intro key info found
    by_cases same : key = Text.upper decl.name
    · subst key
      simp only [Record.declare, Table.find?_insert_self, Option.some.injEq] at found
      rw [← found]
    · simp only [Record.declare, Table.find?_insert_of_ne _ same] at found
      exact known.named key info found
  declared := by
    intro key member
    apply (Table.mem_keys_insert ..).mpr
    simp only [Record.declare] at member
    split at member
    · exact (Names.mem_insert.mp member).imp id (known.declared key)
    · exact .inr (known.declared key member)
  reported := known.reported

theorem Consistent.read (known : record.Consistent) (name : String) (line : Nat) (exposed : Bool) :
    (record.read name line exposed).Consistent := by
  simp only [Record.read]
  split
  · exact ⟨known.named, known.declared, known.reported⟩
  · rename_i info found
    have named : Named (record.flow.uses.modify (Text.upper name) fun info =>
        { info with uses := info.uses ++ [line] }) := known.named.modify _ fun _ => by rfl
    split
    · refine ⟨named, by simpa using known.declared, fun key => ?_⟩
      rw [Names.mem_insert, known.reported]
      have same := known.named _ _ found
      constructor
      · rintro (isName | ⟨report, member, rest⟩)
        · exact ⟨_, List.mem_append_right _ (List.mem_singleton_self _), by rw [same, isName]⟩
        · exact ⟨report, List.mem_append_left _ member, rest⟩
      · rintro ⟨report, member, rest⟩
        rcases List.mem_append.mp member with old | new
        · exact .inr ⟨report, old, rest⟩
        · rw [List.mem_singleton.mp new] at rest
          exact .inl (rest.symm.trans same)
    · exact ⟨named, by simpa using known.declared, known.reported⟩

theorem Consistent.write (known : record.Consistent) (name : String) (line : Nat) :
    (record.write name line).Consistent := by
  simp only [Record.write]
  split
  · exact ⟨known.named.modify _ fun _ => by rfl, by simpa using known.declared, known.reported⟩
  · split
    · exact known
    · exact ⟨known.named, known.declared, known.reported⟩

theorem Consistent.call (known : record.Consistent) (name : String) (line : Nat) :
    (record.call name line).Consistent := by
  simp only [Record.call]
  split
  · exact ⟨known.named.modify _ fun _ => by rfl, by simpa using known.declared, known.reported⟩
  · exact ⟨known.named, known.declared, known.reported⟩

/-- Every fact keeps the records consistent. -/
theorem Consistent.add (known : record.Consistent) (strict : Bool) :
    ∀ fact, (record.add strict fact).Consistent
  | .declare block decl => known.declare strict block decl
  | .read name line exposed => known.read name line exposed
  | .write name line => known.write name line
  | .call name line => known.call name line
  | .statement .. => ⟨known.named, known.declared, known.reported⟩
  | .dead .. => ⟨known.named, known.declared, known.reported⟩

theorem Consistent.fold (known : record.Consistent) (strict : Bool) (facts : List Fact) :
    (facts.foldl (Record.add strict) record).Consistent := by
  induction facts generalizing record with
  | nil => exact known
  | cons fact rest ih => exact ih (known.add strict fact)

theorem start_consistent (pouName file : String) :
    Consistent { flow := { pouName, file } } where
  named := fun _ _ found => absurd found (by simp)
  declared := by simp
  reported := by simp

@[simp] theorem tracked_read (name : String) (line : Nat) (exposed : Bool) :
    (record.read name line exposed).tracked = record.tracked := by
  simp only [Record.read]
  split
  · rfl
  · split <;> rfl

@[simp] theorem tracked_write (name : String) (line : Nat) :
    (record.write name line).tracked = record.tracked := by
  simp only [Record.write]
  split
  · rfl
  · split <;> rfl

@[simp] theorem reported_write (name : String) (line : Nat) :
    (record.write name line).reported = record.reported := by
  simp only [Record.write]
  split
  · rfl
  · split <;> rfl

@[simp] theorem tracked_call (name : String) (line : Nat) :
    (record.call name line).tracked = record.tracked := by
  simp only [Record.call]
  split <;> rfl

@[simp] theorem reported_call (name : String) (line : Nat) :
    (record.call name line).reported = record.reported := by
  simp only [Record.call]
  split <;> rfl

theorem mem_tracked_declare (strict : Bool) (block : VarBlock Mark) (decl : VarDecl Mark)
    (key : String) : key ∈ (record.declare strict block decl).tracked ↔ key ∈ record.tracked ∨
      needsAssignment strict block decl = true ∧ Text.upper decl.name = key := by
  simp only [Record.declare]
  split
  · rename_i needs
    rw [Names.mem_insert, or_comm, eq_comm]
    simp [needs]
  · rename_i needless
    simp [needless]

/-- An exposed read of a tracked name reports it, any other read does not. -/
theorem mem_reported_read (known : record.Consistent) (name : String) (line : Nat) (exposed : Bool)
    (key : String) : key ∈ (record.read name line exposed).reported ↔ key ∈ record.reported ∨
      exposed = true ∧ Text.upper name = key ∧ key ∈ record.tracked := by
  simp only [Record.read]
  split
  · rename_i absent
    refine ⟨.inl, fun shown => shown.elim id ?_⟩
    rintro ⟨_, rfl, tracked⟩
    obtain ⟨info, found⟩ := Table.find?_of_mem_keys (known.declared _ tracked)
    exact absurd (absent.symm.trans found) (by simp)
  · split
    · rename_i shown
      have new : exposed = true ∧ Text.upper name ∈ record.tracked := by
        simp only [Bool.and_eq_true, List.contains_iff_mem] at shown
        exact shown.1
      rw [Names.mem_insert]
      constructor
      · rintro (rfl | old)
        · exact .inr ⟨new.1, rfl, new.2⟩
        · exact .inl old
      · rintro (old | ⟨_, rfl, _⟩)
        · exact .inr old
        · exact .inl rfl
    · rename_i hidden
      refine ⟨.inl, fun shown => shown.elim id ?_⟩
      rintro ⟨rfl, rfl, tracked⟩
      simpa [tracked] using hidden

/-- Only a declaration that asks for an assignment tracks a name. -/
theorem mem_tracked_add (strict : Bool) (fact : Fact) (key : String) :
    key ∈ (record.add strict fact).tracked ↔ key ∈ record.tracked ∨
      ∃ block decl, fact = .declare block decl ∧ needsAssignment strict block decl = true ∧
        Text.upper decl.name = key := by
  cases fact with
  | declare block decl =>
    rw [Record.add, mem_tracked_declare]
    constructor
    · exact Or.imp id fun new => ⟨block, decl, rfl, new⟩
    · rintro (old | ⟨_, _, same, new⟩)
      · exact .inl old
      · cases same
        exact .inr new
  | _ => simp [Record.add]

theorem mem_reported_add (known : record.Consistent) (strict : Bool) (fact : Fact) (key : String) :
    key ∈ (record.add strict fact).reported ↔ key ∈ record.reported ∨
      ∃ name line, fact = .read name line true ∧ Text.upper name = key ∧ key ∈ record.tracked := by
  cases fact with
  | read name line exposed =>
    rw [Record.add, mem_reported_read known]
    constructor
    · rintro (old | ⟨rfl, new⟩)
      · exact .inl old
      · exact .inr ⟨name, line, rfl, new⟩
    · rintro (old | ⟨_, _, same, new⟩)
      · exact .inl old
      · cases same
        exact .inr ⟨rfl, new⟩
  | declare block decl => simp [Record.add, Record.declare]
  | _ => simp [Record.add]

/-- The names tracked after some facts. -/
theorem mem_tracked_fold (strict : Bool) (facts : List Fact) (key : String) :
    key ∈ (facts.foldl (Record.add strict) record).tracked ↔ key ∈ record.tracked ∨
      ∃ block decl, .declare block decl ∈ facts ∧ needsAssignment strict block decl = true ∧
        Text.upper decl.name = key := by
  induction facts generalizing record with
  | nil => simp
  | cons fact rest ih =>
    rw [List.foldl_cons, ih, mem_tracked_add]
    constructor
    · rintro ((old | ⟨block, decl, same, here⟩) | ⟨block, decl, later, there⟩)
      · exact .inl old
      · exact .inr ⟨block, decl, same ▸ List.mem_cons_self .., here⟩
      · exact .inr ⟨block, decl, List.mem_cons_of_mem _ later, there⟩
    · rintro (old | ⟨block, decl, member, needs⟩)
      · exact .inl (.inl old)
      · rcases List.mem_cons.mp member with same | later
        · exact .inl (.inr ⟨block, decl, same.symm, needs⟩)
        · exact .inr ⟨block, decl, later, needs⟩

/-- The names reported after some facts: each has an exposed read while it is tracked. -/
theorem mem_reported_fold (known : record.Consistent) (strict : Bool) (facts : List Fact)
    (key : String) :
    key ∈ (facts.foldl (Record.add strict) record).reported ↔ key ∈ record.reported ∨
      ∃ front name line back, facts = front ++ .read name line true :: back ∧
        Text.upper name = key ∧ key ∈ (front.foldl (Record.add strict) record).tracked := by
  induction facts generalizing record with
  | nil => simp
  | cons fact rest ih =>
    rw [List.foldl_cons, ih (known.add strict fact), mem_reported_add known]
    constructor
    · rintro ((old | ⟨name, line, same, here⟩) | ⟨front, name, line, back, split, there⟩)
      · exact .inl old
      · exact .inr ⟨[], name, line, rest, by rw [same, List.nil_append], here⟩
      · exact .inr ⟨fact :: front, name, line, back, by rw [split, List.cons_append], there⟩
    · rintro (old | ⟨front, name, line, back, split, there⟩)
      · exact .inl (.inl old)
      · cases front with
        | nil =>
          obtain ⟨same, _⟩ := List.cons.inj split
          exact .inl (.inr ⟨name, line, same, there⟩)
        | cons first front =>
          obtain ⟨same, tail⟩ := List.cons.inj split
          subst first
          exact .inr ⟨front, name, line, back, tail, there⟩

/-- A report that one fact adds tells the line of an exposed read of the variable. -/
theorem report_of_add (known : record.Consistent) {strict : Bool} {fact : Fact}
    {report : UninitializedRead}
    (member : report ∈ (record.add strict fact).flow.uninitializedReads) :
    report ∈ record.flow.uninitializedReads ∨
      ∃ name, fact = .read name report.line true ∧
        Text.upper name = Text.upper report.name := by
  cases fact with
  | read name line exposed =>
    simp only [Record.add, Record.read] at member
    split at member
    · exact .inl member
    · rename_i info found
      split at member
      · rename_i shown
        rcases List.mem_append.mp member with old | new
        · exact .inl old
        · rw [List.mem_singleton.mp new]
          simp only [Bool.and_eq_true] at shown
          exact .inr ⟨name, by rw [shown.1.1], (known.named _ _ found).symm⟩
      · exact .inl member
  | write name line =>
    simp only [Record.add, Record.write] at member
    split at member
    · exact .inl member
    · split at member <;> exact .inl member
  | call name line =>
    simp only [Record.add, Record.call] at member
    split at member <;> exact .inl member
  | declare block decl => exact .inl member
  | statement id info => exact .inl member
  | dead kind startLine endLine description => exact .inl member

/-- Every report tells the line of an exposed read. -/
theorem report_of_fold (known : record.Consistent) {strict : Bool} {facts : List Fact}
    {report : UninitializedRead}
    (member : report ∈ (facts.foldl (Record.add strict) record).flow.uninitializedReads) :
    report ∈ record.flow.uninitializedReads ∨
      ∃ name, .read name report.line true ∈ facts ∧
        Text.upper name = Text.upper report.name := by
  induction facts generalizing record with
  | nil => exact .inl member
  | cons fact rest ih =>
    rcases ih (known.add strict fact) member with old | ⟨name, later, same⟩
    · rcases report_of_add known old with old | ⟨name, here, same⟩
      · exact .inl old
      · exact .inr ⟨name, here ▸ List.mem_cons_self .., same⟩
    · exact .inr ⟨name, List.mem_cons_of_mem _ later, same⟩

theorem controlFlow_add (strict : Bool) (fact : Fact) :
    (record.add strict fact).flow.controlFlow =
      fact.statement?.elim record.flow.controlFlow
        fun entry => record.flow.controlFlow.insert entry.1 entry.2 := by
  cases fact with
  | read name line exposed =>
    simp only [Record.add, Record.read]
    split
    · rfl
    · split <;> rfl
  | write name line =>
    simp only [Record.add, Record.write]
    split
    · rfl
    · split <;> rfl
  | call name line =>
    simp only [Record.add, Record.call]
    split <;> rfl
  | _ => rfl

theorem controlFlow_fold (strict : Bool) (facts : List Fact) :
    (facts.foldl (Record.add strict) record).flow.controlFlow =
      (facts.filterMap Fact.statement?).foldl (fun table entry => table.insert entry.1 entry.2)
        record.flow.controlFlow := by
  induction facts generalizing record with
  | nil => rfl
  | cons fact rest ih =>
    rw [List.foldl_cons, ih, controlFlow_add]
    cases fact <;> rfl

theorem deadCode_add (strict : Bool) (fact : Fact) :
    (record.add strict fact).flow.deadCode = record.flow.deadCode ++
        (fact.deadCode? record.flow.file record.flow.pouName).toList ∧
      (record.add strict fact).flow.file = record.flow.file ∧
      (record.add strict fact).flow.pouName = record.flow.pouName := by
  cases fact with
  | read name line exposed =>
    simp only [Record.add, Record.read]
    split
    · simp [Fact.deadCode?]
    · split <;> simp [Fact.deadCode?]
  | write name line =>
    simp only [Record.add, Record.write]
    split
    · simp [Fact.deadCode?]
    · split <;> simp [Fact.deadCode?]
  | call name line =>
    simp only [Record.add, Record.call]
    split <;> simp [Fact.deadCode?]
  | _ => simp [Record.add, Record.declare, Fact.deadCode?]

theorem deadCode_fold (strict : Bool) (facts : List Fact) :
    (facts.foldl (Record.add strict) record).flow.deadCode = record.flow.deadCode ++
      facts.filterMap (Fact.deadCode? record.flow.file record.flow.pouName) := by
  induction facts generalizing record with
  | nil => simp
  | cons fact rest ih =>
    obtain ⟨added, file, pouName⟩ := record.deadCode_add strict fact
    rw [List.foldl_cons, ih, added, file, pouName, List.append_assoc]
    cases shown : fact.deadCode? record.flow.file record.flow.pouName <;> simp [shown]

end Record

/-- A variable is among the reads without an assignment. -/
def PouFlow.Reports (flow : PouFlow) (key : String) : Prop :=
  ∃ report ∈ flow.uninitializedReads, Text.upper report.name = key

theorem PouFlow.not_reports_of_eq_nil {flow : PouFlow} (nothing : flow.uninitializedReads = [])
    (key : String) : ¬ flow.Reports key := by
  rintro ⟨report, member, _⟩
  rw [nothing] at member
  cases member

/-- A variable is reported exactly for an exposed read behind a declaration of it that asks for an
assignment. -/
theorem pouFlow_reports_iff (strict : Bool) (file : String) (pou : Pou Mark) (key : String) :
    (pouFlow strict file pou).Reports key ↔
      ∃ front name line back, pouFacts pou = front ++ .read name line true :: back ∧
        Text.upper name = key ∧
        ∃ block decl, .declare block decl ∈ front ∧ needsAssignment strict block decl = true ∧
          Text.upper decl.name = key := by
  have start := Record.start_consistent pou.name file
  have listed := (start.fold strict (pouFacts pou)).reported key
  rw [Record.mem_reported_fold start] at listed
  simp only [Record.mem_tracked_fold, List.not_mem_nil, false_or] at listed
  exact listed.symm

/-- Every report of a unit tells the line of an exposed read. -/
theorem read_of_report {strict : Bool} {file : String} {pou : Pou Mark}
    {report : UninitializedRead} (member : report ∈ (pouFlow strict file pou).uninitializedReads) :
    ∃ name, .read name report.line true ∈ pouFacts pou ∧
      Text.upper name = Text.upper report.name := by
  rcases Record.report_of_fold (Record.start_consistent pou.name file) member with old | shown
  · cases old
  · exact shown

/-- The control flow of a unit is what the pass notes for its statements. -/
theorem pouFlow_controlFlow (strict : Bool) (file : String) (pou : Pou Mark) :
    (pouFlow strict file pou).controlFlow =
      Table.ofList ((pouFacts pou).filterMap Fact.statement?) :=
  Record.controlFlow_fold strict (pouFacts pou)

/-- The dead code of a unit is what the pass reports of it, in walk order. -/
theorem pouFlow_deadCode (strict : Bool) (file : String) (pou : Pou Mark) :
    (pouFlow strict file pou).deadCode =
      (pouFacts pou).filterMap (Fact.deadCode? file pou.name) :=
  Record.deadCode_fold strict (pouFacts pou)

theorem analyzePou_eq_ok {strict : Bool} {file : String} {pou : Pou Mark} {flow : PouFlow}
    (analyzed : analyzePou strict file pou = .ok flow) : flow = pouFlow strict file pou := by
  unfold analyzePou at analyzed
  split at analyzed
  · cases analyzed
  · exact (Except.ok.inj analyzed).symm

end PlcAudit.Flow
