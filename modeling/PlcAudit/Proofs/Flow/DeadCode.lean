import Mathlib.Data.List.Nodup
import PlcAudit.Proofs.Flow.ControlFlow
import PlcAudit.Proofs.Flow.Layout
import PlcAudit.Proofs.Flow.Traversal

/-!
Reports of dead code. The pass reports exactly the regions that lie in no other, in walk order, and
the statements that it marks as unreachable are exactly those inside the reported regions.
-/

namespace PlcAudit.Flow

open Code

/-- The kind and the lines of a region that a fact reports. -/
def Fact.region? : Fact → Option (DeadKind × Nat × Nat)
  | .dead kind startLine endLine _ => some (kind, startLine, endLine)
  | _ => none

/-- The statement that a fact marks as unreachable. -/
def Fact.unreachable? : Fact → Option Nat
  | .statement id info => if info.reachable then none else some id
  | _ => none

def Region.extent (region : Region) : DeadKind × Nat × Nat :=
  (region.kind, region.startLine, region.endLine)

/-- The statements of several regions, at every depth. -/
def regionParts (regions : List Region) : List (Stmt Mark) :=
  regions.flatMap fun region => blockParts region.body

/-- The facts of some code report its outer regions and mark the statements in them. -/
structure Reveals (facts : List Fact) (regions : List Region) (parts : List (Stmt Mark)) :
    Prop where
  reported : facts.filterMap Fact.region? = (outer regions).map Region.extent
  marked : facts.filterMap Fact.unreachable? = partIds (regionParts (outer regions))
  within : (regionParts (outer regions)).Sublist parts

namespace Reveals

variable {facts more : List Fact} {regions others : List Region} {parts further : List (Stmt Mark)}

theorem nil : Reveals [] [] [] := ⟨rfl, rfl, .slnil⟩

theorem append (front : Reveals facts regions parts) (back : Reveals more others further) :
    Reveals (facts ++ more) (regions ++ others) (parts ++ further) where
  reported := by
    rw [List.filterMap_append, front.reported, back.reported, outer_append, List.map_append]
  marked := by
    rw [List.filterMap_append, front.marked, back.marked, outer_append, regionParts, regionParts,
      regionParts, List.flatMap_append, partIds_append]
  within := by
    rw [outer_append, regionParts, List.flatMap_append]
    exact front.within.append back.within

/-- A statement that can be reached is in no region. -/
theorem enter {info : ControlFlow} (known : Reveals facts regions parts)
    (reachable : info.reachable = true) (stmt : Stmt Mark) :
    Reveals (.statement stmt.tag.id info :: facts) regions (stmt :: parts) where
  reported := known.reported
  marked := by
    rw [List.filterMap_cons_none (by simp [Fact.unreachable?, reachable]), known.marked]
  within := known.within.cons stmt

theorem observed (reachable : Bool) (assigned : Names) (accesses : List Access) :
    Reveals (observe reachable assigned accesses).1 [] [] := by
  induction accesses generalizing assigned with
  | nil => exact .nil
  | cons access rest ih =>
    rcases access with ⟨name, line⟩ | ⟨name, line⟩ | ⟨name, line⟩
    · exact ⟨(ih assigned).reported, (ih assigned).marked, .slnil⟩
    · exact ⟨(ih _).reported, (ih _).marked, .slnil⟩
    · exact ⟨(ih assigned).reported, (ih assigned).marked, .slnil⟩

end Reveals

/-- Where code never runs, no region is reported and every statement is marked. -/
theorem kept_marked : Kept fun reachable fact => reachable = false →
    fact.region? = none ∧ fact.unreachable? = fact.statement?.map Prod.fst where
  read := fun _ _ _ _ _ _ => ⟨rfl, rfl⟩
  write := fun _ _ _ _ => ⟨rfl, rfl⟩
  call := fun _ _ _ _ => ⟨rfl, rfl⟩
  statement := fun id info dead => ⟨rfl, by simp [Fact.unreachable?, Fact.statement?, dead]⟩
  dead := fun _ _ _ _ _ live => absurd live (by simp)
  around := fun _ _ live => absurd live (by simp)

/-- A body that never runs, with the report of it: one region that holds all statements of the
body. -/
theorem reveals_region {context dead : Context} {inner : List Region}
    (live : context.reachable = true) (never : dead.reachable = false) (kind : DeadKind)
    (startLine last : Nat) (description : String) (assigned : Names) (body : List (Stmt Mark))
    (nested : outer inner = []) :
    Reveals
      (context.deadFact kind startLine last description ++ (blockFlow dead assigned body).facts)
      (regionOf false (some kind) startLine last body ++ inner) (blockParts body) := by
  have kept := fun fact member => kept_block kept_marked dead assigned body fact member never
  have only : outer (regionOf false (some kind) startLine last body ++ inner) =
      [⟨kind, startLine, max last startLine, body, false⟩] := by
    rw [outer_append, nested]
    rfl
  have unreported : (blockFlow dead assigned body).facts.filterMap Fact.region? = [] :=
    List.filterMap_eq_nil_iff.mpr fun fact member => (kept fact member).1
  have marks : (blockFlow dead assigned body).facts.filterMap Fact.unreachable? =
      notedIds (blockFlow dead assigned body).facts := by
    rw [notedIds, List.map_filterMap]
    exact List.filterMap_congr fun fact member => (kept fact member).2
  rw [Context.deadFact, if_pos live]
  refine ⟨?_, ?_, ?_⟩
  · rw [only, List.filterMap_append, unreported]
    rfl
  · rw [only, List.filterMap_append, marks, block_notes]
    simp [Fact.unreachable?, regionParts]
  · rw [only]
    simp [regionParts]

/-- A branch of a conditional statement: its own regions if it can run, or itself as a region. -/
theorem Branches.reveals_add {context : Context} {constants : Constants}
    {regions : List Region} {parts : List (Stmt Mark)} (branches : Branches)
    (live : context.reachable = true) (before : Names) (constant : Option Bool) (line : Nat)
    (body : List (Stmt Mark))
    (known : Reveals branches.facts regions parts)
    (inside : branches.isLive constant = true →
      Reveals (blockFlow (context.only (branches.isLive constant)) before body).facts
        (blockRegions constants false body) (blockParts body)) :
    Reveals
      (branches.add context constant line body
        (blockFlow (context.only (branches.isLive constant)) before body)).facts
      (regions ++ (regionOf false (closedBy branches.decided.isSome constant) line
          (lastLine body) body ++
        blockRegions constants (closedBy branches.decided.isSome constant).isSome body))
      (parts ++ blockParts body) := by
  have never : branches.isLive constant = false →
      (context.only (branches.isLive constant)).reachable = false := fun closed => by
    simp [Context.only, closed]
  unfold Branches.add
  split
  · rename_i trueLine decided
    simp only [decided, closedBy, Option.isSome_some, if_true]
    exact known.append (reveals_region live (never (by simp [Branches.isLive, decided])) _ _ _ _ _
      _ (outer_blockRegions constants body))
  · rename_i undecided
    split
    · simp only [undecided, closedBy, Option.isSome_none, if_true]
      exact known.append (reveals_region live (never (by simp [Branches.isLive])) _ _ _ _ _ _
        (outer_blockRegions constants body))
    · simpa [undecided, closedBy, Branches.join] using
        known.append (inside (by simp [Branches.isLive, undecided]))
    · simpa [undecided, closedBy, Branches.join] using
        known.append (inside (by simp [Branches.isLive, undecided]))

/-- A statement at the head of a block: the rest goes on, or it is a region. -/
theorem reveals_cons {context : Context} {constants : Constants} {assigned : Names}
    {stmt : Stmt Mark} {rest : List (Stmt Mark)} (live : context.Live constants)
    (head : Reveals (.statement stmt.tag.id context.info :: (stmtFlow context assigned stmt).facts)
      (stmtRegions constants false stmt) (stmtParts stmt))
    (tail : Reveals (blockFlow context (stmtFlow context assigned stmt).assigned rest).facts
      (blockRegions constants false rest) (blockParts rest)) :
    Reveals (blockFlow context assigned (stmt :: rest)).facts
      (blockRegions constants false (stmt :: rest)) (blockParts (stmt :: rest)) := by
  have goesOn := continues_iff live assigned stmt
  rw [blockRegions, blockParts]
  by_cases stops : (stmtFlow context assigned stmt).stops = true
  · have never : ¬ Continues constants stmt := fun continues =>
      absurd (stops.symm.trans (goesOn.mpr continues)) (by simp)
    simp only [blockFlow, stops, if_true, if_neg never]
    cases rest with
    | nil => simpa [buriedRegions, blockParts] using head
    | cons next rest =>
      simp only [List.isEmpty_cons, Bool.false_eq_true, if_false, List.append_assoc]
      exact head.append (reveals_region live.reachable (by simp [Context.only]) _ _ _ _ _ _
        (outer_buriedRegions constants (next :: rest)))
  · have falls : (stmtFlow context assigned stmt).stops = false := by simpa using stops
    rw [blockFlow_of_falls rest falls, if_pos (goesOn.mp falls)]
    exact head.append tail

mutual

/-- In code that can run, the pass reveals the regions of a statement. -/
theorem stmt_reveals {context : Context} {constants : Constants} (live : context.Live constants)
    (assigned : Names) :
    ∀ stmt, Reveals (.statement stmt.tag.id context.info :: (stmtFlow context assigned stmt).facts)
      (stmtRegions constants false stmt) (stmtParts stmt)
  | .assign .. => by
    simp only [stmtFlow, stmtRegions, stmtParts]
    exact (Reveals.observed ..).enter live.reachable _
  | .cond tag condition thenBody elsifs elseBody => by
    have inner := live.inConditional
    simp only [stmtFlow, stmtRegions, stmtParts, live.constants]
    have started := Reveals.observed context.reachable assigned (exprAccesses condition)
    generalize (observe context.reachable assigned (exprAccesses condition)).2 = before
    generalize (observe context.reachable assigned (exprAccesses condition)).1 = facts
      at started ⊢
    let start : Branches := { facts }
    have added := start.reveals_add inner.reachable before (foldCondition constants condition)
      tag.line thenBody started fun runs => block_reveals (inner.only runs) before thenBody
    obtain ⟨known, decided⟩ := clauses_reveal inner before elsifs added
    have whole := else_reveals inner before tag.line elseBody known
    rw [decided, Branches.decided_add] at whole
    refine Reveals.enter ?_ live.reachable _
    simpa [start, Branches.outcome] using whole
  | .select tag selector elements elseBody => by
    have inner := live.inConditional
    simp only [stmtFlow, stmtRegions, stmtParts]
    have started := Reveals.observed context.reachable assigned (exprAccesses selector)
    generalize (observe context.reachable assigned (exprAccesses selector)).2 = before
    generalize (observe context.reachable assigned (exprAccesses selector)).1 = facts
      at started ⊢
    have known : Reveals (elementFlow context.inConditional before { facts } elements).facts
        ([] ++ elementRegions constants false elements) ([] ++ elementParts elements) :=
      elements_reveal inner before elements started
    have whole := else_reveals inner before tag.line elseBody known
    rw [elementFlow_decided] at whole
    refine Reveals.enter ?_ live.reachable _
    simpa [Branches.outcome] using whole
  | .forLoop _ _ _ _ _ body => by
    simp only [stmtFlow, stmtRegions, stmtParts]
    exact ((Reveals.observed ..).append (block_reveals live.inLoop _ body)).enter live.reachable _
  | .whileLoop tag condition body => by
    simp only [stmtFlow, stmtRegions, stmtParts, live.constants, Bool.false_or]
    split
    · rename_i closed
      simp only [closedBy, closed, if_true, List.append_assoc]
      refine Reveals.enter ?_ live.reachable _
      exact (Reveals.observed ..).append (reveals_region live.reachable (by simp [Context.only])
        _ _ _ _ _ _ (outer_blockRegions constants body))
    · rename_i open_
      simp only [closedBy, open_, if_false]
      refine Reveals.enter ?_ live.reachable _
      exact (Reveals.observed ..).append (block_reveals live.inLoop _ body)
  | .repeatLoop _ body _ => by
    simp only [stmtFlow, stmtRegions, stmtParts]
    refine Reveals.enter ?_ live.reachable _
    simpa using (block_reveals live.inLoop assigned body).append (Reveals.observed ..)
  | .exit _ => by
    simp only [stmtFlow, stmtRegions, stmtParts]
    exact Reveals.nil.enter live.reachable _
  | .return_ _ => by
    simp only [stmtFlow, stmtRegions, stmtParts]
    exact Reveals.nil.enter live.reachable _
  | .call .. => by
    simp only [stmtFlow, stmtRegions, stmtParts]
    exact (Reveals.observed ..).enter live.reachable _

theorem block_reveals {context : Context} {constants : Constants} (live : context.Live constants)
    (assigned : Names) :
    ∀ body, Reveals (blockFlow context assigned body).facts (blockRegions constants false body)
      (blockParts body)
  | [] => by
    simp only [blockFlow, blockRegions, blockParts]
    exact .nil
  | stmt :: rest =>
    reveals_cons live (stmt_reveals live assigned stmt) (block_reveals live _ rest)

theorem clauses_reveal {context : Context} {constants : Constants} {branches : Branches}
    {regions : List Region} {parts : List (Stmt Mark)} (live : context.Live constants)
    (before : Names) (elsifs : List (Clause Mark)) (known : Reveals branches.facts regions parts) :
    Reveals (clauseFlow context before branches elsifs).facts
        (regions ++ clauseRegions constants false branches.decided.isSome elsifs)
        (parts ++ clauseParts elsifs) ∧
      (clauseFlow context before branches elsifs).decided.isSome =
        (branches.decided.isSome || takesClause constants elsifs) := by
  match elsifs with
  | [] =>
    simp only [clauseFlow, clauseRegions, clauseParts, takesClause, List.append_nil, List.any_nil,
      Bool.or_false, and_true]
    exact known
  | .mk span condition body :: rest =>
    simp only [clauseFlow, clauseRegions, clauseParts, live.constants, Bool.false_or]
    have noted : Reveals (if branches.decided.isNone then
        branches.note (observe context.reachable before (exprAccesses condition)).1
        else branches).facts regions parts := by
      split
      · simpa [Branches.note] using
          known.append (Reveals.observed context.reachable before (exprAccesses condition))
      · exact known
    have same := branches.decided_condition context before condition
    generalize (if branches.decided.isNone then
        branches.note (observe context.reachable before (exprAccesses condition)).1
        else branches) = met at noted same ⊢
    have added := met.reveals_add live.reachable before (foldCondition constants condition)
      span.startLine body noted fun runs => block_reveals (live.only runs) before body
    obtain ⟨later, decided⟩ := clauses_reveal live before rest added
    rw [Branches.decided_add, same] at later decided
    refine ⟨by simpa using later, ?_⟩
    rw [decided, takesClause, takesClause, List.any_cons, Bool.or_assoc]
    rfl

theorem elements_reveal {context : Context} {constants : Constants} {branches : Branches}
    {regions : List Region} {parts : List (Stmt Mark)} (live : context.Live constants)
    (before : Names) (elements : List (Element Mark))
    (known : Reveals branches.facts regions parts) :
    Reveals (elementFlow context before branches elements).facts
      (regions ++ elementRegions constants false elements) (parts ++ elementParts elements) := by
  match elements with
  | [] => simpa [elementFlow, elementRegions, elementParts] using known
  | .mk labels body :: rest =>
    simp only [elementFlow, elementRegions, elementParts]
    have joined : Reveals (branches.join (blockFlow context before body)).facts
        (regions ++ blockRegions constants false body) (parts ++ blockParts body) :=
      known.append (block_reveals live before body)
    simpa using elements_reveal live before rest joined

theorem else_reveals {context : Context} {constants : Constants} {branches : Branches}
    {regions : List Region} {parts : List (Stmt Mark)} (live : context.Live constants)
    (before : Names) (line : Nat) (elseBody : Option (List (Stmt Mark)))
    (known : Reveals branches.facts regions parts) :
    Reveals (elseFlow context before line branches elseBody).facts
      (regions ++ elseRegions constants false branches.decided.isSome line elseBody)
      (parts ++ elseParts elseBody) := by
  match elseBody with
  | none =>
    simp only [elseFlow, elseRegions, elseParts, List.append_nil]
    split
    · exact known
    · exact known
  | some body =>
    simp only [elseFlow, elseRegions, elseParts, Bool.false_or]
    split
    · rename_i trueLine decided
      simp only [decided, closedBy, Option.isSome_some, if_true]
      exact known.append (reveals_region live.reachable (by simp [Context.only]) _ _ _ _ _ _
        (outer_blockRegions constants body))
    · rename_i undecided
      have runs : (context.only branches.decided.isNone).Live constants :=
        live.only (by simp [undecided])
      have inside := block_reveals runs before body
      simpa [undecided, closedBy, Branches.join] using known.append inside

end

/-! Units -/

theorem declarations_reveal (pou : Pou Mark) : Reveals (declarations pou).facts [] [] := by
  refine List.foldlRecOn (motive := fun declared : Declared => Reveals declared.facts [] [])
    pou.decls _ .nil ?_
  intro declared known entry _
  have declare : Reveals [.declare entry.1 entry.2] [] [] := ⟨rfl, rfl, .slnil⟩
  exact (known.append (Reveals.observed ..)).append declare

/-- The facts of a unit report its outer regions and mark the statements in them. -/
theorem pou_reveals (pou : Pou Mark) :
    Reveals (pouFacts pou) (blockRegions (declarations pou).constants false pou.body)
      (blockParts pou.body) :=
  (declarations_reveal pou).append (block_reveals ⟨rfl, rfl⟩ _ pou.body)

section Units

variable {pou : Pou Mark} {stmt : Stmt Mark}

/-- Of statements with distinct identities, each keeps the flag that the pass notes for it. -/
theorem isReachable_of_noted (strict : Bool) (file : String)
    (distinct : (partIds (blockParts pou.body)).Nodup) {info : ControlFlow}
    (noted : .statement stmt.tag.id info ∈ pouFacts pou) :
    (pouFlow strict file pou).isReachable stmt = info.reachable := by
  simp [PouFlow.isReachable, find?_controlFlow_of_noted strict file distinct noted]

theorem noted_of_part (member : stmt ∈ blockParts pou.body) :
    ∃ info, .statement stmt.tag.id info ∈ pouFacts pou := by
  have noted : stmt.tag.id ∈ notedIds (pouFacts pou) := by
    rw [notedIds_pouFacts]
    exact List.mem_map_of_mem member
  obtain ⟨⟨id, info⟩, listed, same⟩ := List.mem_map.mp noted
  obtain ⟨fact, present, shown⟩ := List.mem_filterMap.mp listed
  cases fact <;> cases shown
  exact ⟨info, (show id = stmt.tag.id from same) ▸ present⟩

theorem Fact.unreachable?_eq_some {fact : Fact} {id : Nat} (shown : fact.unreachable? = some id) :
    ∃ info, fact = .statement id info ∧ info.reachable = false := by
  cases fact <;> simp only [Fact.unreachable?, reduceCtorEq] at shown
  rename_i info
  split at shown
  · cases shown
  · rename_i dead
    cases shown
    exact ⟨info, rfl, by simpa using dead⟩

/-- A statement is marked as unreachable exactly when it lies in an outer region. -/
theorem isReachable_false_iff (strict : Bool) (file : String)
    (distinct : (partIds (blockParts pou.body)).Nodup) (member : stmt ∈ blockParts pou.body) :
    (pouFlow strict file pou).isReachable stmt = false ↔
      stmt ∈ regionParts (outerRegions pou) := by
  have reveals := pou_reveals pou
  constructor
  · intro dead
    obtain ⟨info, noted⟩ := noted_of_part member
    rw [isReachable_of_noted strict file distinct noted] at dead
    have marked : stmt.tag.id ∈ partIds (regionParts (outerRegions pou)) := by
      rw [outerRegions, ← reveals.marked]
      exact List.mem_filterMap.mpr ⟨_, noted, by simp [Fact.unreachable?, dead]⟩
    obtain ⟨other, present, same⟩ := List.mem_map.mp marked
    have equal := List.inj_on_of_nodup_map distinct (reveals.within.subset present) member same
    exact equal ▸ present
  · intro inside
    have marked : stmt.tag.id ∈ (pouFacts pou).filterMap Fact.unreachable? := by
      rw [reveals.marked]
      exact List.mem_map_of_mem inside
    obtain ⟨fact, present, shown⟩ := List.mem_filterMap.mp marked
    obtain ⟨info, rfl, dead⟩ := Fact.unreachable?_eq_some shown
    rw [isReachable_of_noted strict file distinct present, dead]

/-- No statement lies in two of the outer regions. -/
theorem region_unique (distinct : (partIds (blockParts pou.body)).Nodup)
    (inside : stmt ∈ regionParts (outerRegions pou)) :
    ∃! index : Fin (outerRegions pou).length,
      stmt ∈ blockParts ((outerRegions pou).get index).body := by
  have apart : (regionParts (outerRegions pou)).Nodup :=
    (List.Nodup.of_map _ distinct).sublist (pou_reveals pou).within
  obtain ⟨region, present, within⟩ := List.mem_flatMap.mp inside
  obtain ⟨index, rfl⟩ := List.mem_iff_get.mp present
  have disjoint := List.pairwise_iff_getElem.mp (List.nodup_flatMap.mp apart).2
  refine ⟨index, within, fun other also => ?_⟩
  rcases Nat.lt_trichotomy other index with before | equal | behind
  · exact (disjoint other index other.isLt index.isLt before also within).elim
  · exact Fin.ext equal
  · exact (disjoint index other index.isLt other.isLt behind within also).elim

end Units

/-- The dead code of a unit lists exactly the regions that lie in no other, in walk order, each with
its kind and its lines. The statements that are marked as unreachable are those of the listed
regions, each in one of them, and in code in source order they lie between the lines of theirs. -/
theorem deadCode_lists_outerRegions {strict : Bool} {file : String} {pou : Pou Mark}
    {flow : PouFlow} (analyzed : analyzePou strict file pou = .ok flow) :
    (flow.deadCode.map fun entry => (entry.kind, entry.startLine, entry.endLine)) =
        (outerRegions pou).map Region.extent ∧
      (∀ entry ∈ flow.deadCode, entry.file = file ∧ entry.pouName = pou.name) ∧
      (pouFacts pou).filterMap Fact.unreachable? = partIds (regionParts (outerRegions pou)) ∧
      ((partIds (blockParts pou.body)).Nodup → ∀ stmt ∈ blockParts pou.body,
        (flow.isReachable stmt = false ↔ ∃! index : Fin (outerRegions pou).length,
          stmt ∈ blockParts ((outerRegions pou).get index).body)) ∧
      (PouLaidOut pou → ∀ region ∈ outerRegions pou, ∀ stmt ∈ blockParts region.body,
        region.startLine ≤ stmt.line ∧ stmt.line ≤ region.endLine) := by
  rw [analyzePou_eq_ok analyzed]
  have reveals := pou_reveals pou
  refine ⟨?_, ?_, reveals.marked, fun distinct stmt member => ?_, outerRegions_placed⟩
  · rw [pouFlow_deadCode, List.map_filterMap, outerRegions, ← reveals.reported]
    refine List.filterMap_congr fun fact _ => ?_
    cases fact <;> rfl
  · rw [pouFlow_deadCode]
    intro entry member
    obtain ⟨fact, _, shown⟩ := List.mem_filterMap.mp member
    cases fact <;> cases shown
    exact ⟨rfl, rfl⟩
  · rw [isReachable_false_iff strict file distinct member]
    refine ⟨region_unique distinct, fun ⟨index, inside, _⟩ => ?_⟩
    exact List.mem_flatMap.mpr ⟨_, List.get_mem _ index, inside⟩

/-- `IF FALSE THEN RETURN; a := 1; ELSIF FALSE THEN a := 2; END_IF`, with the condition of the
clause on the line below its ELSIF, and `RETURN; WHILE FALSE DO a := 3; END_WHILE` -/
def buriedLoop : Pou Mark where
  tag := ⟨0, .lines 1 12⟩
  kind := .program
  name := "Main"
  body := [
    .cond ⟨1, .lines 2 8⟩ (.literal ⟨2, .line 2⟩ .boolean "FALSE") [
      .return_ ⟨3, .line 3⟩,
      .assign ⟨4, .line 4⟩ { tag := ⟨5, .line 4⟩, name := "a" }
        (.literal ⟨6, .line 4⟩ .integer "1")] [
      .mk (.lines 5 7) (.literal ⟨7, .line 6⟩ .boolean "FALSE") [
        .assign ⟨8, .line 7⟩ { tag := ⟨9, .line 7⟩, name := "a" }
          (.literal ⟨10, .line 7⟩ .integer "2")]] none,
    .return_ ⟨11, .line 9⟩,
    .whileLoop ⟨12, .lines 10 12⟩ (.literal ⟨13, .line 10⟩ .boolean "FALSE") [
      .assign ⟨14, .line 11⟩ { tag := ⟨15, .line 11⟩, name := "a" }
        (.literal ⟨16, .line 11⟩ .integer "3")]]

/-- Of five regions, the two that lie in another one are not reported, and that of the clause starts
where the clause does. -/
theorem deadCode_lists_buriedLoop : ∃ flow,
    analyzePou false "main.st" buriedLoop = .ok flow ∧
      (flow.deadCode.map fun entry => (entry.kind, entry.startLine, entry.endLine)) =
        (outerRegions buriedLoop).map Region.extent ∧
      (outerRegions buriedLoop).map Region.extent =
        [(.alwaysFalse, 2, 4), (.alwaysFalse, 5, 7), (.unreachable, 10, 12)] ∧
      (blockRegions .empty false buriedLoop.body).length = 5 ∧
      (∀ stmt ∈ blockParts buriedLoop.body,
        (flow.isReachable stmt = false ↔ ∃! index : Fin (outerRegions buriedLoop).length,
          stmt ∈ blockParts ((outerRegions buriedLoop).get index).body)) ∧
      ∀ region ∈ outerRegions buriedLoop, ∀ stmt ∈ blockParts region.body,
        region.startLine ≤ stmt.line ∧ stmt.line ≤ region.endLine := by
  have analyzed : analyzePou false "main.st" buriedLoop =
      .ok (pouFlow false "main.st" buriedLoop) := by
    rw [analyzePou, if_neg (by decide)]
  have distinct : (partIds (blockParts buriedLoop.body)).Nodup := by decide
  have laidOut : PouLaidOut buriedLoop := by decide
  obtain ⟨listed, _, _, marked, placed⟩ := deadCode_lists_outerRegions analyzed
  exact ⟨_, analyzed, listed, by decide, by decide, marked distinct, placed laidOut⟩

end PlcAudit.Flow
