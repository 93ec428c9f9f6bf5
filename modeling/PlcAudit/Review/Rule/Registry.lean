import PlcAudit.Review.Rule.Access
import PlcAudit.Review.Rule.Declaration
import PlcAudit.Review.Rule.Extent
import PlcAudit.Review.Rule.Naming
import PlcAudit.Review.Rule.Value

/-!
The rules with code of their own, in the order of their ids, and the limits they work with.
-/

namespace PlcAudit.Review

structure Thresholds where
  maxFunctionLines : Nat := 50
  criticalFunctionLines : Nat := 100
  maxNestingDepth : Nat := 3
  maxComplexity : Nat := 15
  maxParameters : Nat := 5
  maxNameLength : Nat := 50
  globalWarningCount : Nat := 10
  globalMaxCount : Nat := 20
  linesPerComment : Nat := 20
  deriving DecidableEq, Inhabited, Repr

/-- The rules under given limits. -/
def codedRules (limits : Thresholds) : List Rule := [
  narrowedType,
  missingInitialValue,
  uncheckedIndex,
  uncheckedPointer,
  exactComparison,
  placeholderName,
  magicNumber,
  longFunction limits.maxFunctionLines limits.criticalFunctionLines,
  deepNesting limits.maxNestingDepth,
  duplicateCode,
  missingElse,
  namingConvention,
  globalOveruse limits.globalWarningCount limits.globalMaxCount,
  fixedAddress,
  unboundedLoop,
  fewComments limits.linesPerComment,
  highComplexity limits.maxComplexity,
  manyParameters limits.maxParameters,
  longName limits.maxNameLength,
  mixedIndentation,
  globalLifetime]

end PlcAudit.Review
