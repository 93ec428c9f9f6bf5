import PlcAudit.Data.Table
import PlcAudit.Metrics
import PlcAudit.Review.Catalogue.Rows
import PlcAudit.Review.Rule.Registry
import PlcAudit.Review.Run

/-!
The review engine: a list of checkers that are run over a change set. A checker may fail, and may
ask for the run to be stopped; the engine's policy decides what a failure means.
-/

namespace PlcAudit.Review

/-- What a check answers about one change. -/
inductive Reply where
  | found (issues : List Issue)
  /-- The check failed, with a text or without one. -/
  | failed (message : Option String)
  /-- The check cancels the run that holds a token and finds nothing. -/
  | cancels (token : Nat)
  deriving DecidableEq, Inhabited, Repr

/-- A review rule as the engine sees it. -/
structure Checker where
  id : String
  name : String
  description : String
  severity : Severity
  onVariable : VariableChange → Reply := fun _ => .found []
  onLogic : LogicChange → Reply := fun _ => .found []
  onType : TypeChange → Reply := fun _ => .found []
  onSet : ChangeSet → Reply := fun _ => .found []

/-- The rules of the library never fail. -/
def Rule.checker (rule : Rule) : Checker :=
  { id := rule.id
    name := rule.name
    description := rule.description
    severity := rule.severity
    onVariable := fun change => .found (rule.variableIssues change)
    onLogic := fun change => .found (rule.logicIssues change)
    onType := fun change => .found (rule.typeIssues change)
    onSet := fun changes => .found (rule.setIssues changes) }

/-- What a checker answers to the changes of a set one after another, and to a set that is not empty
as a whole. -/
def Checker.replies (checker : Checker) (changes : ChangeSet) : List (Subject × Reply) :=
  changes.declarations.map (fun change => (.variable, checker.onVariable change)) ++
  changes.logic.map (fun change => (.logic, checker.onLogic change)) ++
  changes.types.map (fun change => (.dataType, checker.onType change)) ++
  if changes.isEmpty then [] else [(.changeSet, checker.onSet changes)]

/-- What was found and what failed. -/
structure Tally where
  issues : List Issue := []
  failures : List CheckFailure := []
  deriving DecidableEq, Inhabited, Repr

def Tally.append (left right : Tally) : Tally :=
  ⟨left.issues ++ right.issues, left.failures ++ right.failures⟩

/-- Stands for the text of a failure that has none. -/
def unexplained : String := "checker panicked"

/-- Takes the replies of one checker in order. The list of cancelled tokens grows by those that the
checker cancels; at a failure the policy decides. -/
def tallyReplies (policy : FailurePolicy) (ruleId : String) :
    List (Subject × Reply) → List Nat → Except RunAborted Tally × List Nat
  | [], cancelled => (.ok {}, cancelled)
  | (subject, reply) :: rest, cancelled =>
    let andThen := fun (first : Tally) (cancelled : List Nat) =>
      let (outcome, cancelled) := tallyReplies policy ruleId rest cancelled
      (outcome.map first.append, cancelled)
    match reply with
    | .found issues => andThen { issues } cancelled
    | .cancels token => andThen {} (token :: cancelled)
    | .failed message =>
      let message := message.getD unexplained
      match policy with
      | .abort => (.error { ruleId, message }, cancelled)
      | .skipAndContinue => andThen { failures := [{ ruleId, subject, message }] } cancelled

/-- Runs checkers in order until the run's token is cancelled. Answers with the tallies of the
checkers that finished and whether the run was stopped. -/
def runCheckers (policy : FailurePolicy) (changes : ChangeSet) (token : Option Nat) :
    List Checker → List Nat → Except RunAborted (List Tally × Bool) × List Nat
  | [], cancelled => (.ok ([], false), cancelled)
  | checker :: rest, cancelled =>
    if token.any cancelled.contains then (.ok ([], true), cancelled)
    else
      match tallyReplies policy checker.id (checker.replies changes) cancelled with
      | (.error aborted, cancelled) => (.error aborted, cancelled)
      | (.ok tally, cancelled) =>
        let (outcome, cancelled) := runCheckers policy changes token rest cancelled
        (outcome.map fun (tallies, stopped) => (tally :: tallies, stopped), cancelled)

/-- Runs checkers beside each other, listed in the order in which they finish. Each tally goes to
the slot of its checker; the first failure that aborts the run is its outcome. -/
def runSlots (policy : FailurePolicy) (changes : ChangeSet) :
    List (Checker × Nat) → List Nat → Except RunAborted (Table Nat Tally) × List Nat
  | [], cancelled => (.ok .empty, cancelled)
  | (checker, slot) :: rest, cancelled =>
    match tallyReplies policy checker.id (checker.replies changes) cancelled with
    | (.error aborted, cancelled) => (.error aborted, cancelled)
    | (.ok tally, cancelled) =>
      let (outcome, cancelled) := runSlots policy changes rest cancelled
      (outcome.map fun slots => slots.insert slot tally, cancelled)

/-- How a run ends: its outcome, the engine's counters behind it, and the tokens that are cancelled
by then. -/
structure RunEnd where
  outcome : Except RunAborted RunReport
  metrics : Option Metrics
  cancelled : List Nat

structure Engine where
  checkers : List Checker := []
  /-- Ids of the rules that are switched off, in upper case. -/
  disabled : List String := []
  policy : FailurePolicy := .skipAndContinue
  /-- Counters that follow the runs, if any are attached. -/
  metrics : Option Metrics := none

namespace Engine

def ofRules (rules : List Rule) : Engine :=
  { checkers := rules.map Rule.checker }

/-- The coded rules under given limits and the default rows of the catalogue. -/
def standard (limits : Thresholds) : Engine :=
  ofRules (codedRules limits ++ defaultCatalogueRules)

def register (engine : Engine) (checker : Checker) : Engine :=
  { engine with checkers := engine.checkers ++ [checker] }

def disable (engine : Engine) (ruleId : String) : Engine :=
  { engine with disabled := Text.upper ruleId :: engine.disabled }

def enable (engine : Engine) (ruleId : String) : Engine :=
  { engine with disabled := engine.disabled.filter (· ≠ Text.upper ruleId) }

/-- Rule ids are compared without regard to case. -/
def isEnabled (engine : Engine) (ruleId : String) : Bool :=
  !engine.disabled.contains (Text.upper ruleId)

/-- The standard engine with a policy and rules switched off. -/
def configured (limits : Thresholds) (policy : FailurePolicy) (disabled : List String) : Engine :=
  disabled.foldl disable { standard limits with policy }

def enabledCheckers (engine : Engine) : List Checker :=
  engine.checkers.filter fun checker => engine.isEnabled checker.id

/-- The report on a run: all that the finished checkers found, in report order. -/
def reportOf (changes : ChangeSet) (tallies : List Tally) (rulesRun : Nat) : RunReport :=
  { issues := Issue.sorted (tallies.flatMap Tally.issues)
    failures := tallies.flatMap Tally.failures
    rulesRun
    changesExamined := changes.size }

/-- Reports on a run; the counters record the report. -/
def finish (engine : Engine) (changes : ChangeSet) (tallies : List Tally) (rulesRun : Nat) :
    RunReport × Option Metrics :=
  let report := reportOf changes tallies rulesRun
  (report, engine.metrics.map (·.recordRun report))

/-- Runs the enabled checkers over a change set. `token` is the token that can stop the run, and
`cancelled` the tokens that are cancelled at its start. -/
def run (engine : Engine) (changes : ChangeSet) (token : Option Nat) (cancelled : List Nat) :
    RunEnd :=
  match runCheckers engine.policy changes token engine.enabledCheckers cancelled with
  | (.error aborted, cancelled) =>
    { outcome := .error aborted, metrics := engine.metrics, cancelled }
  | (.ok (tallies, stopped), cancelled) =>
    let (report, metrics) := engine.finish changes tallies tallies.length
    { outcome := .ok { report with cancelled := stopped }, metrics, cancelled }

/-- Runs the enabled checkers over a change set; nothing can stop the run. -/
def analyze (engine : Engine) (changes : ChangeSet) : Except RunAborted RunReport :=
  (engine.run changes none []).outcome

/-- An order in which the enabled checkers finish when they run beside each other. Each has the slot
of its place in the list. -/
structure Schedule (engine : Engine) where
  finished : List (Checker × Nat)
  complete : finished.Perm engine.enabledCheckers.zipIdx

/-- The checkers finish in the order of their registration. -/
def Schedule.registered (engine : Engine) : engine.Schedule :=
  ⟨engine.enabledCheckers.zipIdx, .refl _⟩

/-- Runs the enabled checkers beside each other; nothing can stop the run. -/
def runParallel (engine : Engine) (schedule : engine.Schedule) (changes : ChangeSet)
    (cancelled : List Nat) : RunEnd :=
  match runSlots engine.policy changes schedule.finished cancelled with
  | (.error aborted, cancelled) =>
    { outcome := .error aborted, metrics := engine.metrics, cancelled }
  | (.ok slots, cancelled) =>
    let (report, metrics) := engine.finish changes slots.values engine.enabledCheckers.length
    { outcome := .ok report, metrics, cancelled }

end Engine

end PlcAudit.Review
