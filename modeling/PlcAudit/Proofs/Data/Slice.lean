/-!
Parts of a list by position. A position is in range up to the one behind the last item; beyond it
there is no part.
-/

namespace PlcAudit

variable {α : Type}

/-- The items from a position on. -/
def slice? (start : Nat) (items : List α) : Option (List α) :=
  if start ≤ items.length then some (items.drop start) else none

/-- The items read from a position on and around to it. -/
def turned? (start : Nat) (items : List α) : Option (List α) :=
  if start ≤ items.length then some (items.drop start ++ items.take start) else none

theorem slice?_of_le {start : Nat} {items : List α} (inRange : start ≤ items.length) :
    slice? start items = some (items.drop start) :=
  if_pos inRange

/-- Where a part has a first item, that stands at its position, and the part behind it begins at the
next one. -/
theorem read_of_drop {position : Nat} {items rest : List α} {item : α}
    (left : items.drop position = item :: rest) :
    items[position]? = some item ∧ items.drop (position + 1) = rest := by
  rw [← List.head?_drop, ← List.tail_drop, left]
  exact ⟨rfl, rfl⟩

/-- The part that begins at the first item of a kind. -/
theorem slice?_findIdx? {isFirst : α → Bool} {front back : List α} {item : α}
    (before : ∀ other ∈ front, isFirst other = false) (found : isFirst item = true) :
    slice? (((front ++ item :: back).findIdx? isFirst).getD 0) (front ++ item :: back) =
      some (item :: back) := by
  have position : (front ++ item :: back).findIdx? isFirst = some front.length := by
    rw [List.findIdx?_append, List.findIdx?_eq_none_iff.mpr before]
    simp [List.findIdx?_cons, found]
  rw [position, Option.getD_some, slice?_of_le (by simp), List.drop_left]

/-- Turning a list to its first item of a kind. -/
theorem turned?_findIdx (isFirst : α → Bool) (items : List α) :
    turned? (items.findIdx isFirst) items =
      some (items.dropWhile (! isFirst ·) ++ items.takeWhile (! isFirst ·)) := by
  rw [turned?, if_pos List.findIdx_le_length, List.dropWhile_eq_drop_findIdx_not,
    List.takeWhile_eq_take_findIdx_not]
  simp

end PlcAudit
