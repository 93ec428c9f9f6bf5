import PlcAudit.Confidence.Basic
import PlcAudit.Number.Fixed

/-!
Statistics over a list of confidence results.
-/

namespace PlcAudit.Confidence

structure Statistics where
  total : Nat := 0
  high : Nat := 0
  medium : Nat := 0
  low : Nat := 0
  average : Nat := 0
  least : Nat := 0
  greatest : Nat := 0
  highPercentage : Float := 0
  mediumOrHighPercentage : Float := 0

namespace Statistics

private def percentage (part whole : Nat) : Float :=
  part.toFloat * 100 / whole.toFloat

def ofResults (results : List Result) : Statistics :=
  if results.isEmpty then {}
  else
    let total := results.length
    let scores := results.map (·.score)
    let count := fun level => results.countP (·.level == level)
    { total
      high := count .high
      medium := count .medium
      low := count .low
      average := scores.foldr (· + ·) 0 / total
      least := scores.min?.getD 0
      greatest := scores.max?.getD 0
      highPercentage := percentage (count .high) total
      mediumOrHighPercentage := percentage (count .high + count .medium) total }

def text (s : Statistics) : String :=
  s!"{s.total} results: {s.high} high, {s.medium} medium, {s.low} low; " ++
    s!"score avg {s.average} (min {s.least}, max {s.greatest}); " ++
    s!"{Number.fixed 1 s.highPercentage}% high, " ++
    s!"{Number.fixed 1 s.mediumOrHighPercentage}% medium or better"

end Statistics

end PlcAudit.Confidence
