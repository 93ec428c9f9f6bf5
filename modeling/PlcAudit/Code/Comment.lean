import PlcAudit.Text.Line

/-!
Comments in source text: `//` up to the end of the line and `(* … *)`.
-/

namespace PlcAudit.Code

/-- The characters of one line that stand in no comment. `inside` tells whether a block comment is
open; a block comment that does not end on the line hides the rest of it. -/
def uncommentedFrom : Bool → List Char → List Char
  | _, [] => []
  | true, '*' :: ')' :: rest => uncommentedFrom false rest
  | true, _ :: rest => uncommentedFrom true rest
  | false, '/' :: '/' :: _ => []
  | false, '(' :: '*' :: rest => uncommentedFrom true rest
  | false, c :: rest => c :: uncommentedFrom false rest

/-- One line without its comments. -/
def uncommented (line : String) : String :=
  String.ofList (uncommentedFrom false line.toList)

/-- The lines of a text, each without its comments. -/
def uncommentedLines (code : String) : List String :=
  (Text.lines code).map uncommented

/-- A block comment is open at the end of a line that starts inside one or not. -/
def blockOpenAfter : Bool → List Char → Bool
  | inside, [] => inside
  | true, '*' :: ')' :: rest => blockOpenAfter false rest
  | false, '(' :: '*' :: rest => blockOpenAfter true rest
  | inside, _ :: rest => blockOpenAfter inside rest

private def commentLinesFrom : Bool → List String → Nat
  | _, [] => 0
  | inside, line :: rest =>
    let counted := inside || Text.contains line "//" || Text.contains line "(*"
    (if counted then 1 else 0) + commentLinesFrom (blockOpenAfter inside line.toList) rest

/-- Number of lines that hold a comment or lie in one. -/
def commentLines (code : String) : Nat :=
  commentLinesFrom false (Text.lines code)

/-- The text without its closed block comments; these may span lines. `inside` tells whether one is
open that is known to be closed. -/
def withoutBlocksFrom : Bool → List Char → List Char
  | _, [] => []
  | true, '*' :: ')' :: rest => withoutBlocksFrom false rest
  | true, _ :: rest => withoutBlocksFrom true rest
  | false, '(' :: '*' :: rest =>
    if (Text.cutFirst? ['*', ')'] rest).isSome then withoutBlocksFrom true rest
    else '(' :: '*' :: rest
  | false, c :: rest => c :: withoutBlocksFrom false rest

/-- Lines in the form in which code is compared: no comments, single blanks between words, upper
case, and no empty lines. -/
def normalizedLines (code : String) : List String :=
  (Text.lines (String.ofList (withoutBlocksFrom false code.toList))).map (fun line =>
    Text.upper (Text.joined " " (Text.words (uncommented line)))) |>.filter (· ≠ "")

end PlcAudit.Code
