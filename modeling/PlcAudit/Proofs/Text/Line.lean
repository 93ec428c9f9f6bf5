import PlcAudit.Code.Comment

/-!
How many lines a text has. It has at most one line more than line feeds, and no more without its
comments.
-/

namespace PlcAudit.Text

theorem lineFeeds_le_count (text : List Char) (count : Nat) :
    lineFeeds text count ≤ text.count '\n' :=
  (List.take_sublist count text).count_le '\n'

theorem length_linesFrom_le (current text : List Char) :
    (linesFrom current text).length ≤ text.count '\n' + 1 := by
  fun_induction linesFrom current text with
  | case1 current => simp
  | case2 current started => simp
  | case3 current rest ih => simpa using ih
  | case4 current c rest other ih => exact Nat.le_trans ih (by simp [List.count_cons])

theorem length_lines_le (text : String) : (lines text).length ≤ text.toList.count '\n' + 1 :=
  length_linesFrom_le [] text.toList

end PlcAudit.Text

namespace PlcAudit.Code

@[simp] theorem length_uncommentedLines (code : String) :
    (uncommentedLines code).length = (Text.lines code).length :=
  List.length_map ..

theorem withoutBlocksFrom_sublist (inside : Bool) (text : List Char) :
    (withoutBlocksFrom inside text).Sublist text := by
  fun_induction withoutBlocksFrom inside text with
  | case1 => exact .slnil
  | case2 rest ih => exact (ih.cons _).cons _
  | case3 c rest open_ ih => exact ih.cons _
  | case4 rest closed ih => exact (ih.cons _).cons _
  | case5 rest unclosed => exact .refl _
  | case6 c rest open_ ih => exact ih.cons_cons _

theorem length_normalizedLines_le (code : String) :
    (normalizedLines code).length ≤ code.toList.count '\n' + 1 := by
  have kept := (withoutBlocksFrom_sublist false code.toList).count_le '\n'
  have bound := Text.length_lines_le (String.ofList (withoutBlocksFrom false code.toList))
  rw [String.toList_ofList] at bound
  calc (normalizedLines code).length
    _ ≤ (Text.lines (String.ofList (withoutBlocksFrom false code.toList))).length :=
      Nat.le_trans (List.length_filter_le ..) (Nat.le_of_eq (List.length_map ..))
    _ ≤ code.toList.count '\n' + 1 := by omega

end PlcAudit.Code
