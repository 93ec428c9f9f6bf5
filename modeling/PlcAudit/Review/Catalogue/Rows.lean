import PlcAudit.Review.Catalogue.Declarations
import PlcAudit.Review.Catalogue.Execution
import PlcAudit.Review.Catalogue.Operations
import PlcAudit.Review.Catalogue.Typing
import PlcAudit.Review.Catalogue.Upkeep

/-!
The whole catalogue in the order of the ids of its rows.
-/

namespace PlcAudit.Review

def catalogue : List Row :=
  (declarationsRows ++ variablesRows ++ initializationRows ++ namesRows ++ operationsRows ++
    conversionsRows ++ memoryLayoutRows ++ standardRows ++ unusedCodeRows ++ concurrencyRows ++
    objectsRows ++ safetyRows ++ metricsRows ++ commentsRows ++ miscellaneousRows).mergeSort
      fun left right => left.id ≤ right.id

/-- All rows as rules. -/
def catalogueRules : List Rule :=
  catalogue.map Row.rule

/-- The rows that run unless told otherwise, as rules. -/
def defaultCatalogueRules : List Rule :=
  (catalogue.filter Row.isDefault).map Row.rule

def row? (id : String) : Option Row :=
  catalogue.find? fun row => row.id == id

end PlcAudit.Review
