import PlcAudit.Code.Tree
import PlcAudit.Issue.Basic

/-!
Confidence in findings. Evidence adds to or takes from a base score; the result says by how much
each piece of evidence did.
-/

namespace PlcAudit.Confidence

inductive Level where
  | low | medium | high
  deriving DecidableEq, Inhabited, Repr

namespace Level

def all : List Level := [.low, .medium, .high]

def name : Level → String
  | .low => "Low"
  | .medium => "Medium"
  | .high => "High"

def rank : Level → Nat
  | .low => 0
  | .medium => 1
  | .high => 2

/-- High from 90 on, medium from 60 on. -/
def ofScore (score : Nat) : Level :=
  if 90 ≤ score then .high else if 60 ≤ score then .medium else .low

/-- Reads a level name in any letter case. -/
def ofText? (text : String) : Option Level :=
  match Text.lower (Text.trim text) with
  | "low" => some .low
  | "medium" => some .medium
  | "high" => some .high
  | _ => none

end Level

/-- Evidence about a finding. -/
structure Signals where
  confirmedByAst : Bool := false
  confirmedByDataflow : Bool := false
  ambiguousContext : Bool := false
  externalReference : Bool := false
  ioVariable : Bool := false
  globalVariable : Bool := false
  similarOccurrences : Nat := 0
  notes : List String := []
  context : List (String × String) := []
  deriving DecidableEq, Inhabited, Repr

/-- A file that could not be read cleanly makes its findings less certain. -/
def Signals.withTree (signals : Signals) (tree : Code.Tree) : Signals :=
  if tree.isValid then signals
  else { signals with
    ambiguousContext := true
    notes := signals.notes ++ [s!"{tree.errors.length} parse error(s) in {tree.file}"] }

/-- A score with what it is made of. -/
structure Result where
  score : Nat
  level : Level
  reasons : List String := []
  breakdown : List (String × Int) := []
  deriving DecidableEq, Inhabited, Repr

def baseScore : Int := 50

/-- The score within 0 to 100. -/
def clamped (score : Int) : Nat :=
  (min (max score 0) 100).toNat

/-- A number with its sign, also when it is positive. -/
def signedText (value : Int) : String :=
  if 0 ≤ value then s!"+{value}" else toString value

namespace Result

def rawScore (result : Result) : Int :=
  baseScore + (result.breakdown.map Prod.snd).foldr (· + ·) 0

/-- Score and level follow from the breakdown. -/
def isConsistent (result : Result) : Bool :=
  clamped result.rawScore == result.score && Level.ofScore result.score == result.level

/-- The result when there is no evidence at all. -/
def withoutEvidence : Result :=
  { score := 50, level := .low, reasons := ["No AST analysis available; pattern match only"] }

/-- The result line by line. -/
def report (result : Result) : String :=
  let factors := result.breakdown.map fun (factor, delta) => s!"  {factor}: {signedText delta}\n"
  let clamping :=
    if result.rawScore == result.score then "" else s!"  clamped from {result.rawScore}\n"
  let reasons :=
    if result.reasons.isEmpty then ""
    else "Reasons:\n" ++ String.join (result.reasons.map fun reason => s!"  - {reason}\n")
  s!"Confidence: {result.level.name} ({result.score}/100)\n" ++
    s!"  base score: {baseScore}\n" ++ String.join factors ++ clamping ++ reasons

end Result

/-- A piece of evidence: whether it applies, its name, its weight and why. -/
structure Factor where
  applies : Bool
  name : String
  delta : Int
  reason : String

/-- From this many findings of one kind on, they support each other. -/
def similarThreshold : Nat := 3

/-- The pieces of evidence in the order in which they are weighed. -/
def factors (signals : Signals) (issue : Option Issue) : List Factor :=
  [ ⟨signals.confirmedByAst, "AST confirmed", 30, "Confirmed by AST analysis"⟩,
    ⟨signals.confirmedByDataflow, "Data flow confirmed", 20, "Confirmed by data flow analysis"⟩,
    ⟨decide (similarThreshold ≤ signals.similarOccurrences),
      s!"Similar occurrences ({signals.similarOccurrences})", 10,
      s!"{signals.similarOccurrences} similar occurrences found"⟩,
    ⟨issue.any (·.severity == .critical), "Critical severity", 5, "Critical severity issue"⟩,
    ⟨signals.ambiguousContext, "Ambiguous context", -20,
      "Ambiguous or partially parsed context"⟩,
    ⟨signals.externalReference, "Possible external reference", -15,
      "May be referenced externally"⟩,
    ⟨signals.ioVariable, "I/O variable", -10, "I/O variable, may be driven by hardware"⟩,
    ⟨signals.globalVariable, "Global variable", -5,
      "Global variable, usage may be outside this scope"⟩ ]

/-- What the evidence weighed so far comes to. The score is kept beside the list of weights. -/
structure Balance where
  score : Int := baseScore
  reasons : List String := []
  breakdown : List (String × Int) := []
  deriving DecidableEq, Inhabited, Repr

/-- Weighs a piece of evidence, if it applies. -/
def Balance.apply (balance : Balance) (factor : Factor) : Balance :=
  if factor.applies then
    { score := balance.score + factor.delta
      reasons := balance.reasons ++ [s!"{factor.reason} ({signedText factor.delta})"]
      breakdown := balance.breakdown ++ [(factor.name, factor.delta)] }
  else balance

def weigh (signals : Signals) (issue : Option Issue) : Balance :=
  (factors signals issue).foldl Balance.apply {}

/-- How many pairs of the context a reason shows. -/
def previewPairs : Nat := 3

/-- A short view of the context, if there is one. -/
def contextReasons (context : List (String × String)) : List String :=
  if context.isEmpty then []
  else
    let preview := (context.take previewPairs).map fun (key, value) =>
      s!"{key}={Text.truncated value 60}"
    let more := context.length - previewPairs
    let suffix := if more = 0 then "" else s!" (+{more} more)"
    ["context: " ++ Text.joined ", " preview ++ suffix]

/-- The result for one bag of evidence. -/
def evaluate (signals : Signals) (issue : Option Issue) : Result :=
  let balance := weigh signals issue
  let score := clamped balance.score
  { score
    level := .ofScore score
    reasons := balance.reasons ++ signals.notes.map (fun note => s!"note: {note}") ++
      contextReasons signals.context
    breakdown := balance.breakdown }

/-- The result for a finding whose evidence may be missing. -/
def calculate (signals : Option Signals) (issue : Option Issue) : Result :=
  match signals with
  | some signals => evaluate signals issue
  | none => .withoutEvidence

/-- The best result of several bags of evidence, the earliest of equals. -/
def aggregate (bags : List Signals) (issue : Option Issue) : Result :=
  match bags.map (evaluate · issue) with
  | [] => .withoutEvidence
  | first :: rest =>
    let best := rest.foldl (fun best next => if best.score < next.score then next else best) first
    { best with reasons := best.reasons ++ [s!"{bags.length} analyses, best selected"] }

/-- The family of rules that a rule belongs to. -/
def ruleKind (ruleId : String) : String :=
  match ruleId with
  | "QA006" | "QA021" | "SA0033" | "SA0034" | "SA0035" | "SA0036" | "SA0037" | "VAR001" =>
    "UNUSED_VARIABLE"
  | "QA003" | "SA0066" | "SA0132" => "ARRAY_BOUNDS"
  | "QA007" => "MAGIC_NUMBER"
  | "SA0001" | "SA0097" | "DEAD001" => "DEAD_CODE"
  | _ => "DEFAULT"

/-- The evidence that a family of rules brings by itself, with the issue as context. -/
def presetSignals (kind : String) (issue : Issue) : Signals :=
  let base : Signals :=
    match Text.upper kind with
    | "UNUSED_VARIABLE" => { confirmedByAst := true, confirmedByDataflow := true }
    | "ARRAY_BOUNDS" | "MAGIC_NUMBER" => { confirmedByAst := true }
    | "DEAD_CODE" => { confirmedByAst := true, ambiguousContext := true }
    | _ => { ambiguousContext := true }
  { base with context := [
    ("RuleId", issue.ruleId), ("Category", issue.category), ("Severity", issue.severity.name),
    ("Location", issue.location)] }

/-- What makes two findings similar. -/
inductive Similarity where
  | ruleId
  | ruleAndCategory
  deriving DecidableEq, Inhabited, Repr

namespace Similarity

def name : Similarity → String
  | .ruleId => "rule_id"
  | .ruleAndCategory => "rule_and_category"

def ofText? (text : String) : Option Similarity :=
  match Text.lower (Text.trim text) with
  | "rule" | "rule_id" => some .ruleId
  | "rule_and_category" | "rule+category" => some .ruleAndCategory
  | _ => none

def agrees (key : Similarity) (left right : Issue) : Bool :=
  left.ruleId == right.ruleId && (key == .ruleId || left.category == right.category)

/-- For each finding, how many findings of the batch are similar to it, itself included. -/
def counts (key : Similarity) (issues : List Issue) : List Nat :=
  issues.map fun issue => issues.countP (key.agrees issue)

end Similarity

end PlcAudit.Confidence
