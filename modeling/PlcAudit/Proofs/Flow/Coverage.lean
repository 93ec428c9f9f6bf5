import PlcAudit.Proofs.Flow.Exposure

/-!
The structural pass covers every structural path: each read that is exposed on a path is an exposed
fact, each call on it is a fact, each statement a path enters is noted as reachable, and what the
pass takes for assigned is written on every path.
-/

namespace PlcAudit.Flow

open Code

-- the equations of the pass are worked out here, once for all proofs below
attribute [local simp] stmtFlow blockFlow clauseFlow elementFlow elseFlow

/-- The facts of the pass know what happens on a path that starts with some names written. -/
structure Noted (facts : List Fact) (written : Names) (trace : List Event) : Prop where
  reads : ∀ name line, Exposed written trace name line → .read name line true ∈ facts
  visits : ∀ id, .enter id ∈ trace → ∃ info, .statement id info ∈ facts ∧ info.reachable = true
  calls : ∀ name line, .access (.call name line) ∈ trace → .call name line ∈ facts

theorem Noted.nil {facts : List Fact} {written : Names} : Noted facts written [] where
  reads := fun _ _ exposed => absurd exposed not_exposed_nil
  visits := fun _ member => absurd member List.not_mem_nil
  calls := fun _ _ member => absurd member List.not_mem_nil

theorem Noted.append {facts : List Fact} {written : Names} {first second : List Event}
    (front : Noted facts written first) (back : Noted facts (writtenAfter written first) second) :
    Noted facts written (first ++ second) where
  reads := fun name line exposed =>
    exposed.of_append.elim (front.reads name line) (back.reads name line)
  visits := fun id member => (List.mem_append.mp member).elim (front.visits id) (back.visits id)
  calls := fun name line member =>
    (List.mem_append.mp member).elim (front.calls name line) (back.calls name line)

theorem Noted.mono {fewer more : List Fact} {written : Names} {trace : List Event}
    (noted : Noted fewer written trace) (included : fewer ⊆ more) : Noted more written trace where
  reads := fun name line exposed => included (noted.reads name line exposed)
  visits := fun id member =>
    have ⟨info, present, live⟩ := noted.visits id member
    ⟨info, included present, live⟩
  calls := fun name line member => included (noted.calls name line member)

theorem Noted.enter {facts : List Fact} {written : Names} {trace : List Event} {id : Nat}
    {info : ControlFlow} (noted : Noted facts written trace) (present : .statement id info ∈ facts)
    (live : info.reachable = true) : Noted facts written (.enter id :: trace) where
  reads := fun name line exposed => by
    rcases exposed.of_cons with ⟨same, _⟩ | later
    · cases same
    · exact noted.reads name line later
  visits := fun other member => by
    rcases List.mem_cons.mp member with same | later
    · cases same
      exact ⟨info, present, live⟩
    · exact noted.visits other later
  calls := fun name line member => by
    rcases List.mem_cons.mp member with same | later
    · cases same
    · exact noted.calls name line later

/-- Accesses are noted by the pass when it takes no more for assigned than is written. -/
theorem Noted.observed {assigned written : Names} (included : assigned ⊆ written)
    (accesses : List Access) :
    Noted (observe true assigned accesses).1 written (accessed accesses) where
  reads := fun _ _ exposed => observe_exposed (exposed.mono included)
  visits := fun _ member => absurd member not_enter_mem_accessed
  calls := fun _ _ member => observe_called member

/-- What the pass says about the end of a piece of code holds of a path with this ending. -/
def Outcome.Allows (outcome : Outcome) (written : Names) : Ending → Prop
  | .falls => outcome.stops = false ∧ outcome.assigned ⊆ written
  | .exits => ∃ state ∈ outcome.exits, state ⊆ written
  | .returns => True

/-- The pass knows what happens on a path through a piece of code and how the path ends. -/
structure Outcome.Covers (outcome : Outcome) (written : Names) (trace : List Event)
    (ending : Ending) : Prop where
  noted : Noted outcome.facts written trace
  allowed : outcome.Allows (writtenAfter written trace) ending

namespace Branches

def Allows (branches : Branches) (written : Names) : Ending → Prop
  | .falls => branches.allStop = false ∧ ∃ state ∈ branches.ends, state ⊆ written
  | .exits => ∃ state ∈ branches.exits, state ⊆ written
  | .returns => True

/-- All that some branches allow and know stays when more branches come in. -/
structure Extends (earlier later : Branches) : Prop where
  ends : earlier.ends ⊆ later.ends
  exits : earlier.exits ⊆ later.exits
  facts : earlier.facts ⊆ later.facts
  allStop : earlier.allStop = false → later.allStop = false

theorem Extends.refl (branches : Branches) : branches.Extends branches :=
  ⟨List.Subset.refl _, List.Subset.refl _, List.Subset.refl _, id⟩

theorem Extends.trans {first second third : Branches} (one : first.Extends second)
    (two : second.Extends third) : first.Extends third :=
  ⟨List.Subset.trans one.ends two.ends, List.Subset.trans one.exits two.exits,
    List.Subset.trans one.facts two.facts,
    two.allStop ∘ one.allStop⟩

theorem Allows.mono {earlier later : Branches} {written : Names} {ending : Ending}
    (allowed : earlier.Allows written ending) (grown : earlier.Extends later) :
    later.Allows written ending := by
  cases ending with
  | falls =>
    obtain ⟨open_, state, member, included⟩ := allowed
    exact ⟨grown.allStop open_, state, grown.ends member, included⟩
  | exits =>
    obtain ⟨state, member, included⟩ := allowed
    exact ⟨state, grown.exits member, included⟩
  | returns => trivial

/-- The statement as a whole allows what one of its branches allows. -/
theorem Allows.outcome {branches : Branches} {written : Names} {ending : Ending}
    (allowed : branches.Allows written ending) (before : Names) (line : Nat) :
    (branches.outcome before line).Allows written ending := by
  cases ending with
  | falls =>
    obtain ⟨open_, state, member, included⟩ := allowed
    exact ⟨open_, List.Subset.trans (Names.common_subset _ member) included⟩
  | exits => exact allowed
  | returns => trivial

theorem extends_join (branches : Branches) (outcome : Outcome) :
    branches.Extends (branches.join outcome) where
  ends := by
    unfold join
    split
    · exact List.Subset.refl _
    · exact List.subset_append_left ..
  exits := List.subset_append_left ..
  facts := List.subset_append_left ..
  allStop := fun open_ => by simp [join, open_]

theorem join_allows {outcome : Outcome} {written : Names} {ending : Ending} (branches : Branches)
    (allowed : outcome.Allows written ending) : (branches.join outcome).Allows written ending := by
  cases ending with
  | falls =>
    obtain ⟨open_, included⟩ := allowed
    exact ⟨by simp [join, open_], outcome.assigned, by simp [join, open_], included⟩
  | exits =>
    obtain ⟨state, member, included⟩ := allowed
    exact ⟨state, List.mem_append_right _ member, included⟩
  | returns => trivial

theorem extends_note (branches : Branches) (facts : List Fact) :
    branches.Extends (branches.note facts) :=
  ⟨List.Subset.refl _, List.Subset.refl _, List.subset_append_left .., id⟩

theorem extends_skip (branches : Branches) (assigned : Names) :
    branches.Extends (branches.skip assigned) :=
  ⟨List.subset_append_left .., List.Subset.refl _, List.Subset.refl _, fun _ => rfl⟩

theorem extends_add (context : Context) (branches : Branches) (constant : Option Bool) (line : Nat)
    (body : List (Stmt Mark)) (outcome : Outcome) :
    branches.Extends (branches.add context constant line body outcome) := by
  have joined := branches.extends_join outcome
  unfold add
  split
  · exact branches.extends_note _
  · split
    · exact branches.extends_note _
    · exact ⟨joined.ends, joined.exits, joined.facts, joined.allStop⟩
    · exact joined

/-- A branch that can run is joined. -/
theorem join_extends_add {branches : Branches} {constant : Option Bool} (context : Context)
    (line : Nat) (body : List (Stmt Mark)) (outcome : Outcome)
    (undecided : branches.decided = none) (open_ : constant ≠ some false) :
    (branches.join outcome).Extends (branches.add context constant line body outcome) := by
  have same := Extends.refl (branches.join outcome)
  cases constant with
  | none => simpa only [add, undecided] using same
  | some value =>
    cases value with
    | false => exact absurd rfl open_
    | true =>
      simp only [add, undecided]
      exact ⟨same.ends, same.exits, same.facts, same.allStop⟩

theorem add_decided {branches : Branches} {constant : Option Bool} (context : Context)
    (line : Nat) (body : List (Stmt Mark)) (outcome : Outcome)
    (undecided : branches.decided = none) (open_ : constant ≠ some true) :
    (branches.add context constant line body outcome).decided = none := by
  rcases constant with _ | _ | _
  · simp [add, undecided, join]
  · simp [add, undecided, note]
  · exact absurd rfl open_

theorem isLive_of_open {constant : Option Bool} (branches : Branches)
    (undecided : branches.decided = none) (open_ : constant ≠ some false) :
    branches.isLive constant = true := by
  simp [isLive, undecided, open_]

/-- The same for a path through one of several branches. -/
structure Covers (branches : Branches) (written : Names) (trace : List Event) (ending : Ending) :
    Prop where
  noted : Noted branches.facts written trace
  allowed : branches.Allows (writtenAfter written trace) ending

theorem Covers.mono {earlier later : Branches} {written : Names} {trace : List Event}
    {ending : Ending} (covered : earlier.Covers written trace ending)
    (grown : earlier.Extends later) : later.Covers written trace ending :=
  ⟨covered.noted.mono grown.facts, covered.allowed.mono grown⟩

theorem Covers.outcome {branches : Branches} {written : Names} {trace : List Event}
    {ending : Ending} (covered : branches.Covers written trace ending) (before : Names)
    (line : Nat) : (branches.outcome before line).Covers written trace ending :=
  ⟨covered.noted, covered.allowed.outcome before line⟩

/-- A path to the branches and a path through one of them make one path. -/
theorem Covers.prepend {branches : Branches} {written : Names} {first second : List Event}
    {ending : Ending} (covered : branches.Covers (writtenAfter written first) second ending)
    (front : Noted branches.facts written first) :
    branches.Covers written (first ++ second) ending :=
  ⟨front.append covered.noted, by simpa using covered.allowed⟩

theorem join_covers {outcome : Outcome} {written : Names} {trace : List Event} {ending : Ending}
    (branches : Branches) (covered : outcome.Covers written trace ending) :
    (branches.join outcome).Covers written trace ending :=
  ⟨covered.noted.mono (List.subset_append_right ..), branches.join_allows covered.allowed⟩

end Branches

theorem extends_clauseFlow (context : Context) (before : Names) (branches : Branches)
    (elsifs : List (Clause Mark)) :
    branches.Extends (clauseFlow context before branches elsifs) := by
  induction elsifs generalizing branches with
  | nil =>
    rw [clauseFlow]
    exact .refl _
  | cons clause rest ih =>
    obtain ⟨span, condition, body⟩ := clause
    rw [clauseFlow]
    refine Branches.Extends.trans ?_ ((Branches.extends_add ..).trans (ih _))
    split
    · exact branches.extends_note _
    · exact .refl _

theorem extends_elementFlow (context : Context) (before : Names) (branches : Branches)
    (elements : List (Element Mark)) :
    branches.Extends (elementFlow context before branches elements) := by
  induction elements generalizing branches with
  | nil =>
    rw [elementFlow]
    exact .refl _
  | cons element rest ih =>
    obtain ⟨labels, body⟩ := element
    rw [elementFlow]
    exact (branches.extends_join _).trans (ih _)

theorem extends_elseFlow (context : Context) (before : Names) (line : Nat) (branches : Branches)
    (elseBody : Option (List (Stmt Mark))) :
    branches.Extends (elseFlow context before line branches elseBody) := by
  cases elseBody with
  | none =>
    rw [elseFlow]
    split
    · exact .refl _
    · exact branches.extends_skip _
  | some body =>
    rw [elseFlow]
    split
    · exact branches.extends_note _
    · exact branches.extends_join _

/-- The branches in front of the last ELSIF clauses and ELSE are part of all branches. -/
theorem extends_clauses (context : Context) (before : Names) (line : Nat) (branches : Branches)
    (elsifs : List (Clause Mark)) (elseBody : Option (List (Stmt Mark))) :
    branches.Extends
      (elseFlow context before line (clauseFlow context before branches elsifs) elseBody) :=
  (extends_clauseFlow ..).trans (extends_elseFlow ..)

theorem elementFlow_decided (context : Context) (before : Names) (branches : Branches)
    (elements : List (Element Mark)) :
    (elementFlow context before branches elements).decided = branches.decided := by
  induction elements generalizing branches with
  | nil => rw [elementFlow]
  | cons element rest ih =>
    obtain ⟨labels, body⟩ := element
    rw [elementFlow, ih]
    rfl

/-- Each CASE element is joined to the branches before it. -/
theorem extends_of_element {elements : List (Element Mark)} {labels : List (Expr Mark)}
    {body : List (Stmt Mark)} (context : Context) (before : Names) (branches : Branches)
    (member : .mk labels body ∈ elements) :
    ∃ earlier : Branches, (earlier.join (blockFlow context before body)).Extends
      (elementFlow context before branches elements) := by
  induction elements generalizing branches with
  | nil => simp at member
  | cons element rest ih =>
    obtain ⟨otherLabels, other⟩ := element
    rw [elementFlow]
    rcases List.mem_cons.mp member with same | later
    · cases same
      exact ⟨branches, extends_elementFlow ..⟩
    · exact ih _ later

/-- A block goes on behind a statement that does. -/
theorem blockFlow_of_falls {context : Context} {assigned : Names} {stmt : Stmt Mark}
    (rest : List (Stmt Mark)) (goesOn : (stmtFlow context assigned stmt).stops = false) :
    let head := stmtFlow context assigned stmt
    let tail := blockFlow context head.assigned rest
    blockFlow context assigned (stmt :: rest) =
      { tail with
        exits := head.exits ++ tail.exits
        facts := .statement stmt.tag.id context.info :: (head.facts ++ tail.facts) } := by
  simp [blockFlow, goesOn]

theorem head_facts_subset (context : Context) (assigned : Names) (stmt : Stmt Mark)
    (rest : List (Stmt Mark)) :
    .statement stmt.tag.id context.info :: (stmtFlow context assigned stmt).facts ⊆
      (blockFlow context assigned (stmt :: rest)).facts := by
  rw [blockFlow]
  split
  · split
    · exact List.Subset.refl _
    · exact List.Subset.trans (List.subset_append_left ..) (List.subset_append_left ..)
  · exact List.subset_append_left ..

theorem head_exits_subset (context : Context) (assigned : Names) (stmt : Stmt Mark)
    (rest : List (Stmt Mark)) :
    (stmtFlow context assigned stmt).exits ⊆ (blockFlow context assigned (stmt :: rest)).exits := by
  rw [blockFlow]
  split
  · split <;> exact List.Subset.refl _
  · exact List.subset_append_left ..

/-- Code that can run, under the constants a path knows. -/
structure Context.Live (context : Context) (constants : Constants) : Prop where
  constants : context.constants = constants
  reachable : context.reachable = true

theorem Context.Live.inLoop {context : Context} {constants : Constants}
    (live : context.Live constants) :
    context.inLoop.Live constants := ⟨live.constants, live.reachable⟩

theorem Context.Live.inConditional {context : Context} {constants : Constants}
    (live : context.Live constants) :
    context.inConditional.Live constants := ⟨live.constants, live.reachable⟩

theorem Context.Live.only {context : Context} {constants : Constants} {needed : Bool}
    (live : context.Live constants) (holds : needed = true) :
    (context.only needed).Live constants :=
  ⟨live.constants, by simp [Context.only, live.reachable, holds]⟩

theorem Context.Live.observed {context : Context} {constants : Constants}
    {assigned written : Names} (live : context.Live constants) (included : assigned ⊆ written)
    (accesses : List Access) :
    Noted (observe context.reachable assigned accesses).1 written (accessed accesses) ∧
      (observe context.reachable assigned accesses).2 ⊆
        writtenAfter written (accessed accesses) := by
  constructor
  · rw [live.reachable]
    exact .observed included accesses
  · exact List.Subset.trans (observe_after_subset ..) (writtenAfter_mono included _)

/-- What the pass has to know about the paths through a piece of code. A loop is walked once; the
names assigned before it are written in every one of its turns. -/
def Covered (constants : Constants) : Piece → List Event → Ending → Prop
  | .stmt stmt, trace, ending => ∀ context assigned written, Context.Live context constants →
      assigned ⊆ written →
      (stmtFlow context assigned stmt).Covers written trace ending
  | .block body, trace, ending => ∀ context assigned written, Context.Live context constants →
      assigned ⊆ written →
      (blockFlow context assigned body).Covers written trace ending
  | .clauses elsifs elseBody, trace, ending => ∀ context before written branches line,
      Context.Live context constants → before ⊆ written → Branches.decided branches = none →
      (elseFlow context before line (clauseFlow context before branches elsifs) elseBody).Covers
        written trace ending
  | .rounds condition body, trace, ending => ∀ context before written facts,
      Context.Live context constants → before ⊆ written →
      (blockFlow context before body).facts ⊆ facts →
      (∀ later, written ⊆ later → Noted facts later (accessed condition)) →
      Noted facts written trace ∧ ending ≠ .exits

section Statements

variable {constants : Constants} {condition selector until_ : Expr Mark} {tag : Mark}
variable {body thenBody : List (Stmt Mark)} {elsifs : List (Clause Mark)}
variable {elements : List (Element Mark)} {elseBody : Option (List (Stmt Mark))}
variable {trace later : List Event} {ending : Ending}

private theorem covered_then (open_ : foldCondition constants condition ≠ some false)
    (inside : Covered constants (.block thenBody) trace ending) :
    Covered constants (.stmt (.cond tag condition thenBody elsifs elseBody))
      (accessed (exprAccesses condition) ++ trace) ending := by
  intro context assigned written live included
  obtain ⟨noted, kept⟩ := live.observed included (exprAccesses condition)
  rw [← live.constants] at open_
  simp only [stmtFlow]
  generalize observe context.reachable assigned (exprAccesses condition) = seen at noted kept ⊢
  let start : Branches := { facts := seen.1 }
  have runs := start.isLive_of_open rfl open_
  have joined := start.join_covers (inside _ _ _ (live.inConditional.only runs) kept)
  refine Branches.Covers.outcome (.prepend ?_ ?_) _ _
  · exact (joined.mono (Branches.join_extends_add _ _ _ _ rfl open_)).mono (extends_clauses ..)
  · exact noted.mono ((Branches.extends_add _ start ..).trans (extends_clauses ..)).facts

private theorem covered_pastThen (open_ : foldCondition constants condition ≠ some true)
    (inside : Covered constants (.clauses elsifs elseBody) trace ending) :
    Covered constants (.stmt (.cond tag condition thenBody elsifs elseBody))
      (accessed (exprAccesses condition) ++ trace) ending := by
  intro context assigned written live included
  obtain ⟨noted, kept⟩ := live.observed included (exprAccesses condition)
  rw [← live.constants] at open_
  simp only [stmtFlow]
  generalize observe context.reachable assigned (exprAccesses condition) = seen at noted kept ⊢
  let start : Branches := { facts := seen.1 }
  refine Branches.Covers.outcome (.prepend ?_ ?_) _ _
  · exact inside _ _ _ _ _ live.inConditional kept (Branches.add_decided _ _ _ _ rfl open_)
  · exact noted.mono ((Branches.extends_add _ start ..).trans (extends_clauses ..)).facts

private theorem covered_element {labels : List (Expr Mark)} (member : .mk labels body ∈ elements)
    (inside : Covered constants (.block body) trace ending) :
    Covered constants (.stmt (.select tag selector elements elseBody))
      (accessed (exprAccesses selector) ++ trace) ending := by
  intro context assigned written live included
  obtain ⟨noted, kept⟩ := live.observed included (exprAccesses selector)
  simp only [stmtFlow]
  generalize observe context.reachable assigned (exprAccesses selector) = seen at noted kept ⊢
  let start : Branches := { facts := seen.1 }
  obtain ⟨earlier, grown⟩ := extends_of_element context.inConditional seen.2 start member
  have joined := earlier.join_covers (inside _ _ _ live.inConditional kept)
  refine Branches.Covers.outcome (.prepend ?_ ?_) _ _
  · exact (joined.mono grown).mono (extends_elseFlow ..)
  · exact noted.mono ((extends_elementFlow _ _ start _).trans (extends_elseFlow ..)).facts

private theorem covered_noElement (inside : Covered constants (.clauses [] elseBody) trace ending) :
    Covered constants (.stmt (.select tag selector elements elseBody))
      (accessed (exprAccesses selector) ++ trace) ending := by
  intro context assigned written live included
  obtain ⟨noted, kept⟩ := live.observed included (exprAccesses selector)
  simp only [stmtFlow]
  generalize observe context.reachable assigned (exprAccesses selector) = seen at noted kept ⊢
  let start : Branches := { facts := seen.1 }
  have undecided := elementFlow_decided context.inConditional seen.2 start elements
  refine Branches.Covers.outcome (.prepend ?_ ?_) _ _
  · simpa only [clauseFlow] using inside _ _ _ _ tag.line live.inConditional kept undecided
  · exact noted.mono ((extends_elementFlow _ _ start _).trans (extends_elseFlow ..)).facts

/-- A loop that may turn zero times: its head is accessed once, and the names assigned there stay
written through all turns. -/
private theorem covered_loop {context : Context} {assigned written : Names}
    {head turn : List Access} (live : context.Live constants) (included : assigned ⊆ written)
    (again : turn = [] ∨ turn = head)
    (inside : Covered constants (.rounds turn body) trace ending) :
    let seen := observe context.reachable assigned head
    Outcome.Covers
      { assigned := seen.2, facts := seen.1 ++ (blockFlow context.inLoop seen.2 body).facts }
      written (accessed head ++ trace) ending := by
  obtain ⟨noted, kept⟩ := live.observed included head
  intro seen
  have front : Noted (seen.1 ++ (blockFlow context.inLoop seen.2 body).facts) written
      (accessed head) := noted.mono (List.subset_append_left ..)
  have turns : ∀ later, writtenAfter written (accessed head) ⊆ later →
      Noted (seen.1 ++ (blockFlow context.inLoop seen.2 body).facts) later (accessed turn) := by
    intro later grown
    rcases again with same | same
    · subst turn
      exact .nil
    · subst turn
      -- A later turn meets the condition with at least the names written before the loop.
      have wider := List.Subset.trans (List.Subset.trans included (subset_writtenAfter ..)) grown
      exact (live.observed wider head).1.mono (List.subset_append_left ..)
  obtain ⟨back, stays⟩ :=
    inside context.inLoop seen.2 _ _ live.inLoop kept (List.subset_append_right ..) turns
  refine ⟨front.append back, ?_⟩
  cases ending with
  | falls =>
    rw [writtenAfter_append]
    exact ⟨rfl, List.Subset.trans kept (subset_writtenAfter _ trace)⟩
  | exits => exact absurd rfl stays
  | returns => trivial

private theorem covered_for {counter : Target Mark} {start stop : Expr Mark}
    {step : Option (Expr Mark)} (inside : Covered constants (.rounds [] body) trace ending) :
    Covered constants (.stmt (.forLoop tag counter start stop step body))
      (accessed (exprAccesses start ++ exprAccesses stop ++ optionAccesses step ++
        targetAccesses counter) ++ trace) ending := by
  intro context assigned written live included
  simp only [stmtFlow]
  exact covered_loop live included (.inl rfl) inside

private theorem covered_whileNever (closed : foldCondition constants condition = some false) :
    Covered constants (.stmt (.whileLoop tag condition body))
      (accessed (exprAccesses condition)) .falls := by
  intro context assigned written live included
  obtain ⟨noted, kept⟩ := live.observed included (exprAccesses condition)
  rw [← live.constants] at closed
  simp only [stmtFlow, closed, if_true]
  refine ⟨noted.mono ?_, rfl, kept⟩
  exact List.Subset.trans (List.subset_append_left ..) (List.subset_append_left ..)

private theorem covered_while (open_ : foldCondition constants condition ≠ some false)
    (inside : Covered constants (.rounds (exprAccesses condition) body) trace ending) :
    Covered constants (.stmt (.whileLoop tag condition body))
      (accessed (exprAccesses condition) ++ trace) ending := by
  intro context assigned written live included
  rw [← live.constants] at open_
  simp only [stmtFlow, open_, if_false]
  exact covered_loop live included (.inr rfl) inside

private theorem covered_repeat (first : Covered constants (.block body) trace .falls)
    (more : Covered constants (.rounds (exprAccesses until_) body) later ending) :
    Covered constants (.stmt (.repeatLoop tag body until_))
      (trace ++ accessed (exprAccesses until_) ++ later) ending := by
  intro context assigned written live included
  obtain ⟨front, goesOn, kept⟩ := first _ _ _ live.inLoop included
  simp only [stmtFlow]
  generalize walked : blockFlow context.inLoop assigned body = inner at front goesOn kept ⊢
  simp only [goesOn, Bool.not_false, Bool.and_true, Bool.false_eq_true, if_false]
  obtain ⟨noted, after⟩ := live.observed kept (exprAccesses until_)
  have grown := subset_writtenAfter (writtenAfter written trace) (accessed (exprAccesses until_))
  have turns : ∀ wider, writtenAfter (writtenAfter written trace)
      (accessed (exprAccesses until_)) ⊆ wider →
      Noted (inner.facts ++ (observe context.reachable inner.assigned (exprAccesses until_)).1)
        wider (accessed (exprAccesses until_)) := fun wider wide =>
    (live.observed (List.Subset.trans (List.Subset.trans kept grown) wide) _).1.mono
      (List.subset_append_right ..)
  have entry := List.Subset.trans (List.Subset.trans included (subset_writtenAfter written trace))
    grown
  obtain ⟨back, stays⟩ := more context.inLoop assigned _ _ live.inLoop entry
    (by rw [walked]; exact List.subset_append_left ..) turns
  refine ⟨?_, ?_⟩
  · rw [List.append_assoc]
    refine (front.mono (List.subset_append_left ..)).append (Noted.append ?_ back)
    exact noted.mono (List.subset_append_right ..)
  · cases ending with
    | falls =>
      refine ⟨by simp, ?_⟩
      have last := Names.common_subset assigned
        (List.mem_append_right inner.exits (List.mem_singleton_self
          (observe context.reachable inner.assigned (exprAccesses until_)).2))
      simpa using List.Subset.trans (List.Subset.trans last after) (subset_writtenAfter _ later)
    | exits => exact absurd rfl stays
    | returns => trivial

private theorem covered_repeatExit (first : Covered constants (.block body) trace .exits) :
    Covered constants (.stmt (.repeatLoop tag body until_)) trace .falls := by
  intro context assigned written live included
  obtain ⟨front, state, member, kept⟩ := first _ _ _ live.inLoop included
  simp only [stmtFlow]
  refine ⟨front.mono (List.subset_append_left ..), ?_, ?_⟩
  · have nonempty := List.ne_nil_of_mem member
    split <;> simp [nonempty]
  · refine List.Subset.trans (Names.common_subset _ ?_) kept
    split
    · exact member
    · exact List.mem_append_left _ member

private theorem covered_repeatReturn (first : Covered constants (.block body) trace .returns) :
    Covered constants (.stmt (.repeatLoop tag body until_)) trace .returns := by
  intro context assigned written live included
  simp only [stmtFlow]
  exact ⟨(first _ _ _ live.inLoop included).noted.mono (List.subset_append_left ..), trivial⟩

private theorem covered_next {stmt : Stmt Mark} {rest : List (Stmt Mark)}
    (head : Covered constants (.stmt stmt) trace .falls)
    (tail : Covered constants (.block rest) later ending) :
    Covered constants (.block (stmt :: rest)) (.enter stmt.tag.id :: trace ++ later) ending := by
  intro context assigned written live included
  obtain ⟨front, goesOn, kept⟩ := head _ _ _ live included
  obtain ⟨back, allowed⟩ := tail _ _ _ live kept
  rw [blockFlow_of_falls rest goesOn]
  have entered : context.info.reachable = true := live.reachable
  refine ⟨Noted.append (.enter ?_ (List.mem_cons_self ..) entered) ?_, ?_⟩
  · exact front.mono (List.Subset.trans (List.subset_append_left ..) (List.subset_cons_self ..))
  · exact back.mono (List.Subset.trans (List.subset_append_right ..) (List.subset_cons_self ..))
  · rw [List.cons_append, writtenAfter_enter, writtenAfter_append]
    cases ending with
    | falls => exact allowed
    | exits =>
      obtain ⟨state, member, fits⟩ := allowed
      exact ⟨state, List.mem_append_right _ member, fits⟩
    | returns => trivial

private theorem covered_stop {stmt : Stmt Mark} {rest : List (Stmt Mark)}
    (head : Covered constants (.stmt stmt) trace ending) (leaves : ending ≠ .falls) :
    Covered constants (.block (stmt :: rest)) (.enter stmt.tag.id :: trace) ending := by
  intro context assigned written live included
  obtain ⟨front, allowed⟩ := head _ _ _ live included
  have known := head_facts_subset context assigned stmt rest
  refine ⟨(front.mono (List.Subset.trans (List.subset_cons_self ..) known)).enter
    (known (List.mem_cons_self ..)) live.reachable, ?_⟩
  cases ending with
  | falls => exact absurd rfl leaves
  | exits =>
    obtain ⟨state, member, fits⟩ := allowed
    exact ⟨state, head_exits_subset context assigned stmt rest member, fits⟩
  | returns => trivial

private theorem covered_clause {rest : List (Clause Mark)}
    (open_ : foldCondition constants condition ≠ some false)
    (inside : Covered constants (.block body) trace ending) :
    Covered constants (.clauses (.mk span condition body :: rest) elseBody)
      (accessed (exprAccesses condition) ++ trace) ending := by
  intro context before written branches line live included undecided
  obtain ⟨noted, _⟩ := live.observed included (exprAccesses condition)
  rw [← live.constants] at open_
  simp only [clauseFlow, undecided, Option.isNone_none, if_true]
  let met := branches.note (observe context.reachable before (exprAccesses condition)).1
  have runs := met.isLive_of_open undecided open_
  have wider := List.Subset.trans included
    (subset_writtenAfter written (accessed (exprAccesses condition)))
  have joined := met.join_covers (inside _ _ _ (live.only runs) wider)
  refine .prepend ?_ ?_
  · exact (joined.mono (Branches.join_extends_add _ _ _ _ undecided open_)).mono
      (extends_clauses ..)
  · refine noted.mono (List.Subset.trans ?_
      ((Branches.extends_add _ met ..).trans (extends_clauses ..)).facts)
    exact List.subset_append_right ..

private theorem covered_pastClause {rest : List (Clause Mark)}
    (open_ : foldCondition constants condition ≠ some true)
    (inside : Covered constants (.clauses rest elseBody) trace ending) :
    Covered constants (.clauses (.mk span condition body :: rest) elseBody)
      (accessed (exprAccesses condition) ++ trace) ending := by
  intro context before written branches line live included undecided
  obtain ⟨noted, _⟩ := live.observed included (exprAccesses condition)
  rw [← live.constants] at open_
  simp only [clauseFlow, undecided, Option.isNone_none, if_true]
  let met := branches.note (observe context.reachable before (exprAccesses condition)).1
  have wider := List.Subset.trans included
    (subset_writtenAfter written (accessed (exprAccesses condition)))
  refine .prepend ?_ ?_
  · exact inside _ _ _ _ _ live wider (Branches.add_decided _ _ _ _ undecided open_)
  · refine noted.mono (List.Subset.trans ?_
      ((Branches.extends_add _ met ..).trans (extends_clauses ..)).facts)
    exact List.subset_append_right ..

private theorem covered_else (inside : Covered constants (.block body) trace ending) :
    Covered constants (.clauses [] (some body)) trace ending := by
  intro context before written branches line live included undecided
  simp only [clauseFlow, elseFlow, undecided, Option.isNone_none]
  exact branches.join_covers (inside _ _ _ (live.only rfl) included)

private theorem covered_past : Covered constants (.clauses [] none) [] .falls := by
  intro context before written branches line live included undecided
  simp only [clauseFlow, elseFlow, undecided, Option.isSome_none, Bool.false_eq_true, if_false]
  refine ⟨.nil, rfl, before, ?_, included⟩
  exact List.mem_append_right _ (List.mem_singleton_self _)

private theorem covered_round {turn : List Access}
    (inside : Covered constants (.block body) trace .falls)
    (more : Covered constants (.rounds turn body) later ending) :
    Covered constants (.rounds turn body) (trace ++ accessed turn ++ later) ending := by
  intro context before written facts live included known turns
  have first := inside _ _ _ live included
  have grown := subset_writtenAfter written trace
  have wider := List.Subset.trans grown
    (subset_writtenAfter (writtenAfter written trace) (accessed turn))
  obtain ⟨back, stays⟩ := more context before _ facts live (List.Subset.trans included wider) known
    fun even wide => turns even (List.Subset.trans wider wide)
  refine ⟨?_, stays⟩
  rw [List.append_assoc]
  exact (first.noted.mono known).append ((turns _ grown).append back)

end Statements

/-- The pass covers every structural path through every piece of code. -/
theorem Path.covered {constants : Constants} {piece : Piece} {trace : List Event} {ending : Ending}
    (path : Path constants piece trace ending) : Covered constants piece trace ending := by
  induction path with
  | assign =>
    intro context assigned written live included
    simp only [stmtFlow]
    obtain ⟨noted, kept⟩ := live.observed included _
    exact ⟨noted, rfl, kept⟩
  | call =>
    intro context assigned written live included
    simp only [stmtFlow]
    obtain ⟨noted, kept⟩ := live.observed included _
    exact ⟨noted, rfl, kept⟩
  | exit =>
    intro context assigned written live included
    simp only [stmtFlow, live.reachable, if_true]
    exact ⟨.nil, assigned, List.mem_singleton_self _, included⟩
  | return_ =>
    intro context assigned written live included
    simp only [stmtFlow]
    exact ⟨.nil, trivial⟩
  | thenBranch open_ _ ih => exact covered_then open_ ih
  | pastThen open_ _ ih => exact covered_pastThen open_ ih
  | element member _ ih => exact covered_element member ih
  | noElement _ ih => exact covered_noElement ih
  | forLoop _ ih => exact covered_for ih
  | whileNever closed => exact covered_whileNever closed
  | whileLoop open_ _ ih => exact covered_while open_ ih
  | repeatLoop _ _ first more => exact covered_repeat first more
  | repeatExit _ ih => exact covered_repeatExit ih
  | repeatReturn _ ih => exact covered_repeatReturn ih
  | done =>
    intro context assigned written live included
    rw [blockFlow]
    exact ⟨.nil, rfl, included⟩
  | next _ _ head tail => exact covered_next head tail
  | stop _ leaves ih => exact covered_stop ih leaves
  | clause open_ _ ih => exact covered_clause open_ ih
  | pastClause open_ _ ih => exact covered_pastClause open_ ih
  | elseBranch _ ih => exact covered_else ih
  | past => exact covered_past
  | enough => exact fun _ _ _ _ _ _ _ _ => ⟨.nil, by simp⟩
  | round _ _ inside more => exact covered_round inside more
  | roundExit _ ih =>
    intro context before written facts live included known turns
    exact ⟨(ih _ _ _ live included).noted.mono known, by simp⟩
  | roundReturn _ ih =>
    intro context before written facts live included known turns
    exact ⟨(ih _ _ _ live included).noted.mono known, by simp⟩

end PlcAudit.Flow
