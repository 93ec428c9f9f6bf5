import PlcAudit.Text.Alphabet

/-!
Cutting texts: trimming, words, lines, first and last occurrences of a piece of text, and cuts by
encoded length. Everything works on the list of characters of a text.
-/

namespace PlcAudit.Text

/-- The text with ASCII letters in upper case; other characters are kept. This is how names are
compared. -/
def upper (text : String) : String :=
  String.ofList (text.toList.map Char.toUpper)

/-- The text with ASCII letters in lower case. -/
def lower (text : String) : String :=
  String.ofList (text.toList.map Char.toLower)

/-- Two names agree when they differ in the case of ASCII letters at most. -/
def sameName (left right : String) : Bool :=
  upper left == upper right

def trimStart (text : List Char) : List Char :=
  text.dropWhile isBlank

def trimEnd (text : List Char) : List Char :=
  (text.reverse.dropWhile isBlank).reverse

/-- The text without the blanks at both ends. -/
def trim (text : String) : String :=
  String.ofList (trimEnd (trimStart text.toList))

def hasStart (text start : String) : Bool :=
  start.toList.isPrefixOf text.toList

def hasEnd (text ending : String) : Bool :=
  ending.toList.isSuffixOf text.toList

/-- What stands before and after the first occurrence of `piece`. -/
def cutFirst? (piece : List Char) : List Char → Option (List Char × List Char)
  | [] => if piece.isEmpty then some ([], []) else none
  | c :: rest =>
    if piece.isPrefixOf (c :: rest) then some ([], (c :: rest).drop piece.length)
    else (cutFirst? piece rest).map fun (before, after) => (c :: before, after)

/-- What stands before and after the last occurrence of `piece`. -/
def cutLast? (piece text : List Char) : Option (List Char × List Char) :=
  (cutFirst? piece.reverse text.reverse).map fun (after, before) => (before.reverse, after.reverse)

def contains (text piece : String) : Bool :=
  (cutFirst? piece.toList text.toList).isSome

/-- The words of a text behind the characters of a word that has begun, the latest first. -/
def wordsFrom (current : List Char) : List Char → List String
  | [] => if current.isEmpty then [] else [String.ofList current.reverse]
  | c :: rest =>
    if isBlank c then
      if current.isEmpty then wordsFrom [] rest
      else String.ofList current.reverse :: wordsFrom [] rest
    else wordsFrom (c :: current) rest

/-- The pieces of a text between blanks. -/
def words (text : String) : List String :=
  wordsFrom [] text.toList

private def piecesFrom (mark : Char) (current : List Char) : List Char → List String
  | [] => [String.ofList current.reverse]
  | c :: rest =>
    if c == mark then String.ofList current.reverse :: piecesFrom mark [] rest
    else piecesFrom mark (c :: current) rest

/-- The pieces of a text between the occurrences of a character; there is always one more piece
than occurrences. -/
def pieces (mark : Char) (text : String) : List String :=
  piecesFrom mark [] text.toList

/-- A line that has begun, the latest character first, without the carriage return at its end. -/
def dropReturn : List Char → List Char
  | '\r' :: rest => rest
  | other => other

/-- The lines of a text behind the characters of a line that has begun, the latest first. -/
def linesFrom (current : List Char) : List Char → List String
  | [] => if current.isEmpty then [] else [String.ofList current.reverse]
  | '\n' :: rest => String.ofList (dropReturn current).reverse :: linesFrom [] rest
  | c :: rest => linesFrom (c :: current) rest

/-- The lines of a text. A line ends at a line feed, and a carriage return right before that line
feed belongs to the line end; after the last line feed there is a line only if it is not empty. -/
def lines (text : String) : List String :=
  linesFrom [] text.toList

/-- Number of line feeds among the first `count` characters. -/
def lineFeeds (text : List Char) (count : Nat) : Nat :=
  (text.take count).count '\n'

/-- The text as it is when it has at most `limit` characters, and otherwise its beginning with an
ellipsis as the last of `limit` characters. -/
def truncated (text : String) (limit : Nat) : String :=
  let chars := text.toList
  if chars.length ≤ limit then text
  else String.ofList (chars.take (limit - 1) ++ ['…'])

def joined (mark : String) (parts : List String) : String :=
  mark.intercalate parts

end PlcAudit.Text
