import PlcAudit.Text.Line

/-!
Code that is laid out in lines. A layout says which lines stand for themselves, and in which roles,
and which lines open and close the sections of a code. An outline is a code that keeps to a layout,
with its sections nested to any depth.
-/

namespace PlcAudit.Code

/-! Lines with their places -/

/-- Lines as they are read, with their places from a first one on. -/
def placed (read : String → String) (start : Nat) (lines : List String) : List (String × Nat) :=
  (lines.map read).zipIdx start

section

variable (read : String → String) (start : Nat)

theorem placed_cons (line : String) (rest : List String) :
    placed read start (line :: rest) = (read line, start) :: placed read (start + 1) rest := rfl

theorem placed_append (front back : List String) :
    placed read start (front ++ back) =
      placed read start front ++ placed read (start + front.length) back := by
  rw [placed, List.map_append, List.zipIdx_append, List.length_map]
  rfl

end

/-! Layouts and outlines -/

/-- What the lines of a code can be. -/
structure Layout where
  /-- What a line that stands for itself can be. -/
  Role : Type
  /-- What sections there are. -/
  Kind : Type
  stands : Role → String → Prop
  opens : Kind → String → Prop
  closes : Kind → String → Prop

/-- Lines and sections one below the other. A section has an opening line, what stands in it, and a
closing line. -/
inductive Outline (layout : Layout) where
  | done
  | line (role : layout.Role) (text : String) (stands : layout.stands role text)
      (rest : Outline layout)
  | block (kind : layout.Kind) (head : String) (opens : layout.opens kind head)
      (body : Outline layout) (foot : String) (closes : layout.closes kind foot)
      (rest : Outline layout)

namespace Outline

variable {layout : Layout}

def lines : Outline layout → List String
  | .done => []
  | .line _ text _ rest => text :: rest.lines
  | .block _ head _ body foot _ rest => head :: (body.lines ++ foot :: rest.lines)

/-- There is no section. -/
def IsFlat : Outline layout → Prop
  | .done => True
  | .line _ _ _ rest => rest.IsFlat
  | .block .. => False

/-- No section stands in another. -/
def IsShallow : Outline layout → Prop
  | .done => True
  | .line _ _ _ rest => rest.IsShallow
  | .block _ _ _ body _ _ rest => body.IsFlat ∧ rest.IsShallow

end Outline

/-- The lines of a text are those of the outline. -/
def Outline.LaysOut {layout : Layout} (outline : Outline layout) (code : String) : Prop :=
  Text.lines code = outline.lines

end PlcAudit.Code
