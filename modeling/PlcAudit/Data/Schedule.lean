import PlcAudit.Data.Table

/-!
Work on several items side by side. The items finish in any order; what comes of each is put into a
slot of its own, so that the results are listed in the order of the items.
-/

namespace PlcAudit

/-- An order in which items finish. Each has the slot of its place in the list. -/
structure Schedule {α : Type} (items : List α) where
  finished : List (α × Nat)
  complete : finished.Perm items.zipIdx

namespace Schedule

variable {α ε β : Type} {items : List α}

/-- The items finish in the order in which they are listed. -/
def inOrder (items : List α) : Schedule items :=
  ⟨items.zipIdx, .refl _⟩

/-- Fills the slots of items as they finish. The first one to fail is the outcome. -/
def fill (work : α → Except ε β) : List (α × Nat) → Except ε (Table Nat β)
  | [] => .ok .empty
  | (item, slot) :: rest =>
    match work item with
    | .error fault => .error fault
    | .ok value => (fill work rest).map (·.insert slot value)

/-- Works on items side by side. -/
def collect (schedule : Schedule items) (work : α → Except ε β) : Except ε (List β) :=
  (fill work schedule.finished).map Table.values

end Schedule

end PlcAudit
