import PlcAudit.Proofs.Flow.Reachability

/-!
Regions of code that can never run: the rest of a block behind a statement that control never gets
past, and bodies behind constant conditions. They are listed in walk order, and those inside another
region are marked as such.
-/

namespace PlcAudit.Flow

open Code

/-- Control can go on behind a statement. -/
def Continues (constants : Constants) (stmt : Stmt Mark) : Prop :=
  ∃ trace, Path constants (.stmt stmt) trace .falls

/-- In code that can run, the pass decides whether control goes on behind a statement. -/
theorem continues_iff {context : Context} {constants : Constants}
    (live : context.Live constants) (assigned : Names) (stmt : Stmt Mark) :
    (stmtFlow context assigned stmt).stops = false ↔ Continues constants stmt := by
  constructor
  · exact (stmt_realized live assigned stmt).falls
  · rintro ⟨trace, path⟩
    exact (path.covered context assigned assigned live (List.Subset.refl _)).allowed.1

instance (constants : Constants) (stmt : Stmt Mark) : Decidable (Continues constants stmt) :=
  have live : Context.Live { constants } constants := ⟨rfl, rfl⟩
  decidable_of_iff _ (continues_iff live [] stmt)

/-- Code that can never run. -/
structure Region where
  kind : DeadKind
  startLine : Nat
  endLine : Nat
  body : List (Stmt Mark)
  /-- The region lies inside another one. -/
  nested : Bool

/-- A body that is a region for some reason, or for none. A region never ends above its start. -/
def regionOf (nested : Bool) (reason : Option DeadKind) (startLine lastLine : Nat)
    (body : List (Stmt Mark)) : List Region :=
  reason.toList.map fun kind => { kind, startLine, endLine := max lastLine startLine, body, nested }

/-- Why a branch never runs: an earlier condition is always true, or its own is always false. -/
def closedBy (decided : Bool) (constant : Option Bool) : Option DeadKind :=
  if decided then some .alwaysTrue
  else if constant = some false then some .alwaysFalse
  else none

/-- Some clause has a condition that is always true. -/
def takesClause (constants : Constants) (elsifs : List (Clause Mark)) : Bool :=
  elsifs.any fun clause => foldCondition constants clause.condition == some true

mutual

/-- The regions inside a statement. -/
def stmtRegions (constants : Constants) (nested : Bool) : Stmt Mark → List Region
  | .cond tag condition thenBody elsifs elseBody =>
    let constant := foldCondition constants condition
    let decided := constant == some true
    let reason := closedBy false constant
    regionOf nested reason tag.line (lastLine thenBody) thenBody ++
      blockRegions constants (nested || reason.isSome) thenBody ++
      clauseRegions constants nested decided elsifs ++
      elseRegions constants nested (decided || takesClause constants elsifs) tag.line elseBody
  | .select tag _ elements elseBody =>
    elementRegions constants nested elements ++
      elseRegions constants nested false tag.line elseBody
  | .forLoop _ _ _ _ _ body => blockRegions constants nested body
  | .whileLoop tag condition body =>
    let reason := closedBy false (foldCondition constants condition)
    regionOf nested reason (firstLine body tag.line) (max (lastLine body) tag.line) body ++
      blockRegions constants (nested || reason.isSome) body
  | .repeatLoop _ body _ => blockRegions constants nested body
  | .assign .. | .exit _ | .return_ _ | .call .. => []

/-- The regions of a block: the rest behind the first statement that control never gets past, and
those inside its statements. -/
def blockRegions (constants : Constants) (nested : Bool) : List (Stmt Mark) → List Region
  | [] => []
  | stmt :: rest =>
    stmtRegions constants nested stmt ++
      if Continues constants stmt then blockRegions constants nested rest
      else
        regionOf nested (if rest.isEmpty then none else some .unreachable) (firstLine rest 0)
            (lastLine rest) rest ++
          buriedRegions constants rest

/-- The regions inside the statements of a rest that is a region itself. -/
def buriedRegions (constants : Constants) : List (Stmt Mark) → List Region
  | [] => []
  | stmt :: rest => stmtRegions constants true stmt ++ buriedRegions constants rest

/-- The regions of ELSIF clauses, behind an always true condition or not. -/
def clauseRegions (constants : Constants) (nested decided : Bool) :
    List (Clause Mark) → List Region
  | [] => []
  | .mk span condition body :: rest =>
    let constant := foldCondition constants condition
    let reason := closedBy decided constant
    regionOf nested reason span.startLine (lastLine body) body ++
      blockRegions constants (nested || reason.isSome) body ++
      clauseRegions constants nested (decided || constant == some true) rest

def elementRegions (constants : Constants) (nested : Bool) : List (Element Mark) → List Region
  | [] => []
  | .mk _ body :: rest =>
    blockRegions constants nested body ++ elementRegions constants nested rest

def elseRegions (constants : Constants) (nested decided : Bool) (line : Nat) :
    Option (List (Stmt Mark)) → List Region
  | none => []
  | some body =>
    let reason := closedBy decided none
    regionOf nested reason (firstLine body line) (lastLine body) body ++
      blockRegions constants (nested || reason.isSome) body

end

/-- The regions that lie in no other. -/
def outer (regions : List Region) : List Region := regions.filter (!·.nested)

@[simp] theorem outer_nil : outer [] = [] := rfl

@[simp] theorem outer_append (first second : List Region) :
    outer (first ++ second) = outer first ++ outer second :=
  List.filter_append ..

@[simp] theorem regionOf_none (nested : Bool) (startLine lastLine : Nat)
    (body : List (Stmt Mark)) : regionOf nested none startLine lastLine body = [] := rfl

@[simp] theorem outer_regionOf_nested (reason : Option DeadKind) (startLine lastLine : Nat)
    (body : List (Stmt Mark)) : outer (regionOf true reason startLine lastLine body) = [] := by
  cases reason <;> rfl

mutual

/-- Whatever lies inside a region is nested. -/
theorem outer_stmtRegions (constants : Constants) :
    ∀ stmt, outer (stmtRegions constants true stmt) = []
  | .cond _ _ thenBody elsifs elseBody => by
    simp [stmtRegions, outer_blockRegions constants thenBody, outer_clauseRegions constants elsifs,
      outer_elseRegions constants elseBody]
  | .select _ _ elements elseBody => by
    simp [stmtRegions, outer_elementRegions constants elements,
      outer_elseRegions constants elseBody]
  | .forLoop _ _ _ _ _ body => by simp [stmtRegions, outer_blockRegions constants body]
  | .whileLoop _ _ body => by simp [stmtRegions, outer_blockRegions constants body]
  | .repeatLoop _ body _ => by simp [stmtRegions, outer_blockRegions constants body]
  | .assign .. | .exit _ | .return_ _ | .call .. => by simp [stmtRegions]

theorem outer_blockRegions (constants : Constants) :
    ∀ body, outer (blockRegions constants true body) = []
  | [] => by simp [blockRegions]
  | stmt :: rest => by
    rw [blockRegions, outer_append, outer_stmtRegions constants stmt]
    split
    · exact outer_blockRegions constants rest
    · simp [outer_buriedRegions constants rest]

theorem outer_buriedRegions (constants : Constants) :
    ∀ body, outer (buriedRegions constants body) = []
  | [] => by simp [buriedRegions]
  | stmt :: rest => by
    simp [buriedRegions, outer_stmtRegions constants stmt, outer_buriedRegions constants rest]

theorem outer_clauseRegions (constants : Constants) :
    ∀ elsifs decided, outer (clauseRegions constants true decided elsifs) = []
  | [], _ => by simp [clauseRegions]
  | .mk _ _ body :: rest, _ => by
    simp [clauseRegions, outer_blockRegions constants body, outer_clauseRegions constants rest]

theorem outer_elementRegions (constants : Constants) :
    ∀ elements, outer (elementRegions constants true elements) = []
  | [] => by simp [elementRegions]
  | .mk _ body :: rest => by
    simp [elementRegions, outer_blockRegions constants body, outer_elementRegions constants rest]

theorem outer_elseRegions (constants : Constants) :
    ∀ elseBody decided line, outer (elseRegions constants true decided line elseBody) = []
  | none, _, _ => by simp [elseRegions]
  | some body, _, _ => by simp [elseRegions, outer_blockRegions constants body]

end

/-- The regions of a unit that lie in no other, in walk order. -/
def outerRegions (pou : Pou Mark) : List Region :=
  outer (blockRegions (declarations pou).constants false pou.body)

end PlcAudit.Flow
