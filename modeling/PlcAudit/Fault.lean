/-!
Defects of the analysed text that stop an analysis altogether.
-/

namespace PlcAudit

inductive Fault where
  /-- An integer literal names a base outside 2 to 36. -/
  | badBase
  /-- A type wrapper would have to be cut off inside a character. -/
  | splitCharacter
  deriving DecidableEq, Repr

end PlcAudit
