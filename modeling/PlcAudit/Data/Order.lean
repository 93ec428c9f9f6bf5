/-!
Orders of composite keys: by the first part, and by the second where the first parts agree.
-/

namespace PlcAudit

/-- Two parts of a key, the first being the more significant. -/
structure Pair (α β : Type) where
  first : α
  second : β
  deriving DecidableEq, Inhabited, Repr

instance {α β : Type} [Ord α] [Ord β] : Ord (Pair α β) :=
  ⟨compareLex (compareOn Pair.first) (compareOn Pair.second)⟩

instance {α β : Type} [Ord α] [Ord β] [Std.TransOrd α] [Std.TransOrd β] :
    Std.TransOrd (Pair α β) :=
  inferInstanceAs (Std.TransCmp (compareLex (compareOn Pair.first) (compareOn Pair.second)))

end PlcAudit
