import PlcAudit.Flow.Access
import PlcAudit.Flow.Constant

/-!
One structural pass over a body. It keeps the names that are assigned on every path so far and
lists facts in walk order: accesses, statements with their reachability and depth, and regions
that can never run. Code that never runs is walked too, so that its accesses are known.
-/

namespace PlcAudit.Flow

open Code

inductive DeadKind where
  | unreachable | alwaysFalse | alwaysTrue | unusedFunction
  deriving DecidableEq, Repr, Inhabited

def DeadKind.name : DeadKind → String
  | .unreachable => "UnreachableCode"
  | .alwaysFalse => "AlwaysFalseCondition"
  | .alwaysTrue => "AlwaysTrueCondition"
  | .unusedFunction => "UnusedFunction"

/-- Reachability of a statement and the loops and conditionals around it. -/
structure ControlFlow where
  reachable : Bool
  loopDepth : Nat
  conditionalDepth : Nat
  deriving DecidableEq, Repr

/-- Something the pass has seen. A read is exposed when it can run and some path to it has no
assignment of the variable. -/
inductive Fact where
  | declare (block : VarBlock Mark) (decl : VarDecl Mark)
  | read (name : String) (line : Nat) (exposed : Bool)
  | write (name : String) (line : Nat)
  | call (name : String) (line : Nat)
  | statement (id : Nat) (info : ControlFlow)
  | dead (kind : DeadKind) (startLine endLine : Nat) (description : String)

/-- Upper-cased names. -/
abbrev Names := List String

def Names.insert (names : Names) (name : String) : Names :=
  if names.contains (Text.upper name) then names else Text.upper name :: names

/-- The names that are in every one of several lists; there has to be a list. -/
def Names.common? : List Names → Option Names
  | [] => none
  | first :: rest => some (first.filter fun name => rest.all (·.contains name))

/-- Accesses as facts, and the names assigned after them. -/
def observe (reachable : Bool) (assigned : Names) : List Access → List Fact × Names
  | [] => ([], assigned)
  | .read name line :: rest =>
    let (facts, after) := observe reachable assigned rest
    (.read name line (reachable && !assigned.contains (Text.upper name)) :: facts, after)
  | .write name line :: rest =>
    let (facts, after) := observe reachable (assigned.insert name) rest
    (.write name line :: facts, after)
  | .call name line :: rest =>
    let (facts, after) := observe reachable assigned rest
    (.call name line :: facts, after)

/-- What surrounds a piece of code. -/
structure Context where
  constants : Constants
  reachable : Bool := true
  loopDepth : Nat := 0
  conditionalDepth : Nat := 0

namespace Context

def info (context : Context) : ControlFlow :=
  ⟨context.reachable, context.loopDepth, context.conditionalDepth⟩

/-- The context of code that runs only if `live` holds. -/
def only (context : Context) (live : Bool) : Context :=
  { context with reachable := context.reachable && live }

def inLoop (context : Context) : Context :=
  { context with loopDepth := context.loopDepth + 1 }

def inConditional (context : Context) : Context :=
  { context with conditionalDepth := context.conditionalDepth + 1 }

/-- A region inside code that never runs anyway is not reported again. -/
def deadFact (context : Context) (kind : DeadKind) (startLine endLine : Nat)
    (description : String) : List Fact :=
  if context.reachable then [.dead kind startLine (max endLine startLine) description] else []

end Context

/-- Where control is after a piece of code. -/
structure Outcome where
  /-- Names assigned on every path that goes on. -/
  assigned : Names
  /-- Control never goes on behind the code. -/
  stops : Bool := false
  /-- Every path that stops ends in RETURN. -/
  returns : Bool := false
  /-- The line where control stops. -/
  line : Nat := 0
  /-- Names assigned at each EXIT that leaves the loop around the code. -/
  exits : List Names := []
  facts : List Fact := []

/-- What the branches of a conditional have in common. -/
structure Branches where
  /-- Names assigned at the end of each branch that goes on. -/
  ends : List Names := []
  allStop : Bool := true
  allReturn : Bool := true
  /-- Line of the branch whose condition is always true. -/
  decided : Option Nat := none
  exits : List Names := []
  facts : List Fact := []

namespace Branches

/-- Adds a branch that may run. -/
def join (branches : Branches) (outcome : Outcome) : Branches :=
  { branches with
    ends := if outcome.stops then branches.ends else branches.ends ++ [outcome.assigned]
    allStop := branches.allStop && outcome.stops
    allReturn := branches.allReturn && (!outcome.stops || outcome.returns)
    exits := branches.exits ++ outcome.exits
    facts := branches.facts ++ outcome.facts }

/-- The way past all branches. -/
def skip (branches : Branches) (assigned : Names) : Branches :=
  { branches with ends := branches.ends ++ [assigned], allStop := false }

def note (branches : Branches) (facts : List Fact) : Branches :=
  { branches with facts := branches.facts ++ facts }

def outcome (branches : Branches) (before : Names) (line : Nat) : Outcome where
  assigned := (Names.common? branches.ends).getD before
  stops := branches.allStop
  returns := branches.allStop && branches.allReturn
  line := line
  exits := branches.exits
  facts := branches.facts

end Branches

/-- Last line of a list of statements, zero if there is none. -/
def lastLine (body : List (Stmt Mark)) : Nat :=
  (body.map fun stmt => max stmt.tag.span.endLine stmt.line).foldl max 0

/-- First line of a list of statements. -/
def firstLine (body : List (Stmt Mark)) (otherwise : Nat) : Nat :=
  (body.head?.map Stmt.line).getD otherwise

namespace Branches

/-- Adds an IF or ELSIF branch: one that follows an always true condition, and one with an always
false condition, never run. -/
def add (context : Context) (branches : Branches) (constant : Option Bool) (line : Nat)
    (body : List (Stmt Mark)) (outcome : Outcome) : Branches :=
  match branches.decided with
  | some trueLine =>
    branches.note (context.deadFact .alwaysTrue line (lastLine body)
      s!"ELSIF branch never taken: condition at line {trueLine} is always TRUE" ++ outcome.facts)
  | none =>
    match constant with
    | some false =>
      branches.note (context.deadFact .alwaysFalse line (lastLine body)
        "condition is always FALSE" ++ outcome.facts)
    | some true => { branches.join outcome with decided := some line }
    | none => branches.join outcome

/-- A branch that is added now can run if its condition is this constant. -/
def isLive (branches : Branches) (constant : Option Bool) : Bool :=
  branches.decided.isNone && constant != some false

end Branches

mutual

/-- The effect of a statement on control and assigned names. -/
def stmtFlow (context : Context) (assigned : Names) : Stmt Mark → Outcome
  | .assign _ target value =>
    let (facts, assigned) :=
      observe context.reachable assigned (exprAccesses value ++ targetAccesses target)
    { assigned, facts }
  | .cond tag condition thenBody elsifs elseBody =>
    let (facts, before) := observe context.reachable assigned (exprAccesses condition)
    let inner := context.inConditional
    let constant := foldCondition context.constants condition
    let start : Branches := { facts }
    let outcome := blockFlow (inner.only (start.isLive constant)) before thenBody
    let branches := start.add inner constant tag.line thenBody outcome
    let branches := clauseFlow inner before branches elsifs
    (elseFlow inner before tag.line branches elseBody).outcome before tag.line
  | .select tag selector elements elseBody =>
    let (facts, before) := observe context.reachable assigned (exprAccesses selector)
    let inner := context.inConditional
    let branches := elementFlow inner before { facts } elements
    (elseFlow inner before tag.line branches elseBody).outcome before tag.line
  | .forLoop _ counter start stop step body =>
    let (facts, before) := observe context.reachable assigned
      (exprAccesses start ++ exprAccesses stop ++ optionAccesses step ++ targetAccesses counter)
    let inner := blockFlow context.inLoop before body
    { assigned := before, facts := facts ++ inner.facts }
  | .whileLoop tag condition body =>
    let (facts, before) := observe context.reachable assigned (exprAccesses condition)
    if foldCondition context.constants condition = some false then
      let dead := context.deadFact .alwaysFalse (firstLine body tag.line)
        (max (lastLine body) tag.line) "WHILE condition is always FALSE; the body never runs"
      let inner := blockFlow (context.only false) before body
      { assigned := before, facts := facts ++ dead ++ inner.facts }
    else
      let inner := blockFlow context.inLoop before body
      { assigned := before, facts := facts ++ inner.facts }
  | .repeatLoop _ body until_ =>
    let inner := blockFlow context.inLoop assigned body
    let (facts, after) :=
      observe (context.reachable && !inner.stops) inner.assigned (exprAccesses until_)
    let ends := if inner.stops then inner.exits else inner.exits ++ [after]
    let stops := inner.stops && inner.returns && ends.isEmpty
    { assigned := (Names.common? ends).getD assigned
      stops, returns := stops, line := inner.line
      facts := inner.facts ++ facts }
  | .exit tag =>
    { assigned, stops := true, line := tag.line
      exits := if context.reachable then [assigned] else [] }
  | .return_ tag => { assigned, stops := true, returns := true, line := tag.line }
  | .call tag name args =>
    let (facts, assigned) :=
      observe context.reachable assigned (.call name tag.line :: argAccesses args)
    { assigned, facts }

/-- Statements one after another. Behind the first that stops, the rest never runs. -/
def blockFlow (context : Context) (assigned : Names) : List (Stmt Mark) → Outcome
  | [] => { assigned }
  | stmt :: rest =>
    let head := stmtFlow context assigned stmt
    let facts := .statement stmt.tag.id context.info :: head.facts
    if head.stops then
      if rest.isEmpty then { head with facts }
      else
        let cause := if head.returns then "RETURN" else "EXIT"
        let dead := context.deadFact .unreachable (firstLine rest 0) (lastLine rest)
          s!"{rest.length} statement(s) after {cause} at line {head.line}"
        let tail := blockFlow (context.only false) head.assigned rest
        { head with facts := facts ++ dead ++ tail.facts }
    else
      let tail := blockFlow context head.assigned rest
      { tail with exits := head.exits ++ tail.exits, facts := facts ++ tail.facts }

/-- ELSIF clauses. Each condition is met with the names assigned before the whole statement, and
none is met behind an always true one. -/
def clauseFlow (context : Context) (before : Names) (branches : Branches) :
    List (Clause Mark) → Branches
  | [] => branches
  | .mk span condition body :: rest =>
    let branches :=
      if branches.decided.isNone then
        branches.note (observe context.reachable before (exprAccesses condition)).1
      else branches
    let constant := foldCondition context.constants condition
    let outcome := blockFlow (context.only (branches.isLive constant)) before body
    clauseFlow context before (branches.add context constant span.startLine body outcome) rest

def elementFlow (context : Context) (before : Names) (branches : Branches) :
    List (Element Mark) → Branches
  | [] => branches
  | .mk _ body :: rest =>
    elementFlow context before (branches.join (blockFlow context before body)) rest

/-- The ELSE branch, or the way past all branches where it is missing. -/
def elseFlow (context : Context) (before : Names) (line : Nat) (branches : Branches) :
    Option (List (Stmt Mark)) → Branches
  | none => if branches.decided.isSome then branches else branches.skip before
  | some body =>
    let outcome := blockFlow (context.only branches.decided.isNone) before body
    match branches.decided with
    | some trueLine =>
      branches.note (context.deadFact .alwaysTrue (firstLine body line) (lastLine body)
        s!"ELSE branch never taken: condition at line {trueLine} is always TRUE" ++ outcome.facts)
    | none => branches.join outcome

end

/-- Names and constants known after the declarations, and the facts on the way. -/
structure Declared where
  constants : Constants := .empty
  assigned : Names := []
  facts : List Fact := []

/-- An initial value is met before its variable is declared. -/
def Declared.add (declared : Declared) (block : VarBlock Mark) (decl : VarDecl Mark) : Declared :=
  let (facts, assigned) := observe true declared.assigned (optionAccesses decl.initial)
  let value := if block.constant then decl.initial.bind (foldExpr declared.constants) else none
  { constants := match value with
      | some value => declared.constants.insert (Text.upper decl.name) value
      | none => declared.constants
    assigned := assigned
    facts := declared.facts ++ facts ++ [.declare block decl] }

def declarations (pou : Pou Mark) : Declared :=
  pou.decls.foldl (fun declared (block, decl) => declared.add block decl) {}

/-- All facts of a unit: its declarations, then its body. -/
def pouFacts (pou : Pou Mark) : List Fact :=
  let declared := declarations pou
  let body := blockFlow { constants := declared.constants } declared.assigned pou.body
  declared.facts ++ body.facts

end PlcAudit.Flow
