import PlcAudit.Data.Table
import PlcAudit.Number.Fixed
import PlcAudit.Review.Run

/-!
Counters of what runs found and how long operations took.
-/

namespace PlcAudit

open Review

/-- What was recorded so far. Durations are in nanoseconds, oldest first. -/
structure Metrics where
  durations : Table String (List Nat) := .empty
  ruleRuns : Nat := 0
  rulesExecuted : Nat := 0
  changesExamined : Nat := 0
  checkFailures : Nat := 0
  failuresByRule : Table String Nat := .empty
  issuesBySeverity : Table String Nat := .empty
  issuesByRule : Table String Nat := .empty
  filesAnalyzed : Nat := 0
  analysesFailed : Nat := 0

/-- How long one operation took, in milliseconds. -/
structure OperationTiming where
  operation : String
  count : Nat
  average : Float32
  /-- The value below which 95 of 100 samples lie. -/
  ninetyFifth : Float32
  greatest : Float32

/-- How often a rule found something, and its share in percent. -/
structure RuleFrequency where
  ruleId : String
  count : Nat
  percentage : Float32

namespace Metrics

/-- Only this many of the latest samples of an operation are kept. -/
def maxSamples : Nat := 1000

def bump (counts : Table String Nat) (key : String) : Table String Nat :=
  counts.alter key fun count => count.getD 0 + 1

def microseconds (count : Nat) : Nat := count * 1000

def milliseconds (count : Nat) : Nat := count * 1000000

def recordDuration (metrics : Metrics) (operation : String) (duration : Nat) : Metrics :=
  { metrics with
    durations := metrics.durations.alter operation fun samples =>
      let samples := samples.getD []
      samples.drop (samples.length + 1 - maxSamples) ++ [duration] }

/-- How long a run took. Milliseconds beyond 64 bits count as the most that fit. -/
def runDuration (report : RunReport) : Nat :=
  milliseconds (min report.elapsedMs (UInt64.size - 1))

def recordRun (metrics : Metrics) (report : RunReport) : Metrics :=
  { metrics with
    ruleRuns := metrics.ruleRuns + 1
    rulesExecuted := metrics.rulesExecuted + report.rulesRun
    changesExamined := metrics.changesExamined + report.changesExamined
    checkFailures := metrics.checkFailures + report.failures.length
    failuresByRule := report.failures.foldl (fun counts failure => bump counts failure.ruleId)
      metrics.failuresByRule
    issuesBySeverity := report.issues.foldl (fun counts issue => bump counts issue.severity.name)
      metrics.issuesBySeverity
    issuesByRule := report.issues.foldl (fun counts issue => bump counts issue.ruleId)
      metrics.issuesByRule
    : Metrics }.recordDuration "rule_engine" (runDuration report)

def recordFile (metrics : Metrics) : Metrics :=
  { metrics with filesAnalyzed := metrics.filesAnalyzed + 1 }

def recordFailure (metrics : Metrics) : Metrics :=
  { metrics with analysesFailed := metrics.analysesFailed + 1 }

/-- Forgets everything. -/
def reset (_ : Metrics) : Metrics := {}

def issuesWith (metrics : Metrics) (severity : Severity) : Nat :=
  (metrics.issuesBySeverity.find? severity.name).getD 0

/-- The ten rules with the most issues; of rules with as many, the one first in the alphabet. -/
def topRules (metrics : Metrics) : List RuleFrequency :=
  let counts := metrics.issuesByRule.entries
  let total := (counts.map Prod.snd).foldr (· + ·) 0
  let frequencies := counts.map fun (ruleId, count) =>
    { ruleId, count
      percentage := count.toUInt64.toFloat32 / total.toUInt64.toFloat32 * 100 : RuleFrequency }
  (frequencies.mergeSort fun left right => right.count ≤ left.count).take 10

/-- A duration in milliseconds in single precision: whole seconds and the part of a second are
rounded on their own before they are added. -/
def inMilliseconds (duration : Nat) : Float32 :=
  ((duration / 1000000000).toUInt64.toFloat32 +
    (duration % 1000000000).toUInt64.toFloat32 / (1000000000 : UInt64).toFloat32) * 1000

/-- Index of the sample below which 95 of 100 lie. -/
def ninetyFifthIndex (count : Nat) : Nat :=
  min (count.toUInt64.toFloat32 * 0.95).toUInt64.toNat (count - 1)

def timingOf (operation : String) (durations : List Nat) : OperationTiming :=
  let sorted := (durations.map inMilliseconds).mergeSort fun left right => left ≤ right
  let count := sorted.length
  { operation
    count
    average := sorted.foldl (· + ·) 0 / count.toUInt64.toFloat32
    ninetyFifth := (sorted[ninetyFifthIndex count]?).getD 0
    greatest := sorted.getLast?.getD 0 }

/-- The timed operations, the slowest on average first, and by name among equals. -/
def timings (metrics : Metrics) : List OperationTiming :=
  (metrics.durations.entries.map fun (operation, samples) => timingOf operation samples).mergeSort
    fun left right => right.average ≤ left.average

/-- How often each operation was timed, by name. -/
def timedCounts (metrics : Metrics) : List (String × Nat) :=
  metrics.durations.entries.map fun (operation, durations) => (operation, durations.length)

end Metrics

/-- Samples in whole milliseconds for the stages of the analysis. -/
abbrev StageTimes := Table String (List Nat)

namespace StageTimes

def record (times : StageTimes) (stage : String) (sample : Nat) : StageTimes :=
  times.alter stage fun samples => samples.getD [] ++ [sample]

/-- Index of a share of sorted samples, rounded to the nearest; a half goes up. -/
def shareIndex (share : Float) (count : Nat) : Nat :=
  (share * ((count - 1).toUInt64.toFloat)).round.toUInt64.toNat

/-- One line about one stage. -/
def line (stage : String) (samples : List Nat) : String :=
  let sorted := samples.mergeSort fun left right => left ≤ right
  let count := sorted.length
  let at_ := fun (share : Float) => (sorted[shareIndex share count]?).getD 0
  let (half, most, nearlyAll) := (at_ 0.5, at_ 0.95, at_ 0.99)
  let average := sorted.foldr (· + ·) 0 / count
  s!"{stage}: count={count} p50={half} p95={most} p99={nearlyAll} avg={average}"

/-- The stages in alphabetical order with a line for each. -/
def lines (times : StageTimes) : List (String × String) :=
  times.entries.map fun (stage, samples) => (stage, line stage samples)

def header : String := "=== TIMINGS (ms) ==="

end StageTimes

end PlcAudit
