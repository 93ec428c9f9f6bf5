import PlcAudit.Text.Pattern.Matcher

/-!
Path patterns: `?` stands for one byte and `*` for any number of them, a slash included; `**`
between slashes stands for any directories; `[ab-d]` and `[!ab]` stand for one byte out of a set,
and `{x,y}` for one of several patterns. Paths are matched as bytes of their encoding. A path that
ends in `..` names no file, so patterns that ask for a name or an extension pass it over.
-/

namespace PlcAudit.Glob

open Pattern

/-- The bytes of a text, each as the character with its number. -/
def bytesOf (text : String) : List Char :=
  text.toUTF8.toList.map fun byte => Char.ofNat byte.toNat

def charBytes (c : Char) : List Char :=
  bytesOf (String.singleton c)

inductive Token where
  | literal (c : Char)
  | anyOne
  | anyMany
  /-- Directories at the beginning of the pattern. -/
  | leadingPath
  /-- Everything below a directory. -/
  | trailingPath
  /-- Directories between two others. -/
  | innerPath
  | oneOf (set : CharSet)
  /-- One of several patterns. -/
  | alternatives (branches : List (List Token))

def byteExpr (byte : Char) : Expr :=
  .one { items := [.range byte byte] }

def anyByte : Expr := .one { items := [], negated := true }

def anyBytes : Expr := .repeated true anyByte

def slash : Expr := byteExpr '/'

/-- One pattern after another; empty ones are left out. -/
def sequenceOf (exprs : List Expr) : Expr :=
  match (exprs.filter (· ≠ .empty)).reverse with
  | [] => .empty
  | last :: before => before.foldl (fun rest expr => .sequence expr rest) last

/-- One of several patterns. Empty ones do not count. -/
def eitherOf (exprs : List Expr) : Expr :=
  match (exprs.filter (· ≠ .empty)).reverse with
  | [] => .empty
  | last :: before => before.foldl (fun rest expr => .either expr rest) last

mutual

def Token.pattern : Token → Expr
  | .literal c => sequenceOf ((charBytes c).map byteExpr)
  | .anyOne => anyByte
  | .anyMany => anyBytes
  | .leadingPath => .either (.optional true slash) (.sequence anyBytes slash)
  | .trailingPath => .sequence slash anyBytes
  | .innerPath => .either slash (.sequence slash (.sequence anyBytes slash))
  | .oneOf set => .one set
  | .alternatives branches => eitherOf (branchPatterns branches)

def rowPatterns : List Token → List Expr
  | [] => []
  | token :: rest => token.pattern :: rowPatterns rest

def branchPatterns : List (List Token) → List Expr
  | [] => []
  | branch :: rest => sequenceOf (rowPatterns branch) :: branchPatterns rest

end

/-- How many parts stand in a row, and how many levels are nested inside the deepest of them. -/
structure Shape where
  parts : Nat
  depth : Nat

namespace Shape

def beside (left right : Shape) : Shape :=
  ⟨left.parts + right.parts, max left.depth right.depth⟩

/-- The levels of a row; a row of several parts is a level of its own. -/
def levels (shape : Shape) : Nat :=
  if 1 < shape.parts then shape.depth + 1 else shape.depth

/-- A choice between rows is one part: a level for its braces, and one more for several rows. Empty
rows do not count. -/
def choice (shapes : List Shape) : Shape :=
  let rows := shapes.filter fun shape => shape.parts ≠ 0
  let inner := rows.foldl (fun deepest shape => max deepest shape.levels) 0
  if rows.isEmpty then ⟨0, 0⟩ else ⟨1, (if 1 < rows.length then 2 else 1) + inner⟩

end Shape

mutual

def Token.shape : Token → Shape
  | .literal c => ⟨(charBytes c).length, 0⟩
  | .anyOne => ⟨1, 0⟩
  | .anyMany => ⟨1, 1⟩
  | .leadingPath => ⟨1, 4⟩
  | .trailingPath => ⟨2, 1⟩
  | .innerPath => ⟨1, 4⟩
  | .oneOf set => ⟨1, if 1 < set.items.length then 2 else 1⟩
  | .alternatives branches => .choice (branchShapes branches)

def rowShape : List Token → Shape
  | [] => ⟨0, 0⟩
  | token :: rest => token.shape.beside (rowShape rest)

def branchShapes : List (List Token) → List Shape
  | [] => []
  | branch :: rest => rowShape branch :: branchShapes rest

end

/-- The alternatives between two braces as far as they are read: finished ones, and the last one. -/
structure Branches where
  finished : List (List Token) := []
  current : List Token := []

/-- A set of bytes that is being read. -/
structure OpenSet where
  negated : Bool := false
  ranges : List (Char × Char) := []
  /-- Nothing but the mark of negation was read. -/
  isFirst : Bool := true
  /-- A range waits for its upper end. -/
  inRange : Bool := false

/-- What the next character decides about. -/
inductive Pending where
  | none
  | escape
  /-- One star, with the character before it. -/
  | star (before : Option Char)
  /-- Two stars, with the character before them. -/
  | doubleStar (before : Option Char)
  | set (set : OpenSet)

structure State where
  /-- Braces that are open around the present ones, the innermost first. -/
  outer : List Branches := []
  inner : Branches := {}
  previous : Option Char := none
  pending : Pending := .none

namespace State

def push (state : State) (token : Token) : State :=
  { state with inner := { state.inner with current := state.inner.current ++ [token] } }

def inBraces (state : State) : Bool := !state.outer.isEmpty

/-- Two stars that stand for nothing but themselves. -/
def pushStars (state : State) : State :=
  { (state.push .anyMany).push .anyMany with pending := .none }

/-- Puts a path of directories in the place of the slash before it. -/
def replaceLast (state : State) (token : Token) : State :=
  let token := match state.inner.current.getLast? with
    | some .leadingPath => .leadingPath
    | some .trailingPath => .trailingPath
    | _ => token
  { state with
    inner := { state.inner with current := state.inner.current.dropLast ++ [token] }
    pending := .none }

/-- Two stars start a path only at the beginning, behind a slash, or, in braces, behind a comma or a
brace. -/
def startsPath (state : State) (before : Option Char) : Bool :=
  before == some '/' || (state.inBraces && (before == some ',' || before == some '\x7b'))

end State

/-- The bytes from the last byte of one character to the first of another, and the other bytes of
both. -/
def rangeItems (range : Char × Char) : List Item :=
  let single := fun (byte : Char) => Item.range byte byte
  if range.1 == range.2 then (charBytes range.1).map single
  else
    let (low, high) := (charBytes range.1, charBytes range.2)
    low.dropLast.map single ++
      [.range (low.getLast?.getD range.1) (high.head?.getD range.2)] ++ (high.drop 1).map single

def OpenSet.charSet (set : OpenSet) : CharSet :=
  let ranges := if set.inRange then set.ranges ++ [('-', '-')] else set.ranges
  { items := ranges.flatMap rangeItems, negated := set.negated }

/-- Moves the upper end of the last range; ranges that run backwards are refused. -/
def OpenSet.extend (set : OpenSet) (upper : Char) : Option OpenSet :=
  match set.ranges.getLast? with
  | some (lower, _) =>
    if upper < lower then none
    else some { set with
      ranges := set.ranges.dropLast ++ [(lower, upper)], inRange := false, isFirst := false }
  | none => none

/-- Reads a character of a set that does not close it. -/
def OpenSet.next (set : OpenSet) (c : Char) : Option OpenSet :=
  if set.inRange then set.extend c
  else if c == '-' && !set.isFirst then some { set with inRange := true }
  else some { set with ranges := set.ranges ++ [(c, c)], isFirst := false }

/-- Reads a character that nothing before it waits for. -/
def plain (state : State) (c : Char) : Option State :=
  let state := { state with pending := .none, previous := some c }
  match c with
  | '?' => some (state.push .anyOne)
  | '[' => some { state with pending := .set {} }
  | '\\' => some { state with pending := .escape }
  | '\x7b' => some { state with outer := state.inner :: state.outer, inner := {} }
  | '\x7d' =>
    match state.outer with
    | [] => none
    | around :: outer =>
      let branches := state.inner.finished ++ [state.inner.current]
      some ({ state with outer, inner := around : State }.push (.alternatives branches))
  | ',' =>
    if state.inBraces then
      some { state with
        inner := { finished := state.inner.finished ++ [state.inner.current] } }
    else some (state.push (.literal ','))
  | c => some (state.push (.literal c))

/-- Reads a character that is no star or starts a run of stars. -/
def plainOrStar (state : State) (c : Char) : Option State :=
  if c == '*' then
    some { state with pending := .star state.previous, previous := some '*' }
  else plain state c

def step (state : State) (c : Char) : Option State :=
  match state.pending with
  | .none => plainOrStar state c
  | .escape => some { state.push (.literal c) with pending := .none, previous := some c }
  | .star before =>
    if c == '*' then some { state with pending := .doubleStar before, previous := some '*' }
    else plainOrStar { state.push .anyMany with pending := .none } c
  | .doubleStar before =>
    if state.inner.current.isEmpty then
      if c == '/' then
        some { state.push .leadingPath with pending := .none, previous := some '/' }
      else plainOrStar state.pushStars c
    else if !state.startsPath before then plainOrStar state.pushStars c
    else if c == '/' then
      some { state.replaceLast .innerPath with previous := some '/' }
    else if state.inBraces && (c == ',' || c == '\x7d') then
      plainOrStar (state.replaceLast .trailingPath) c
    else plainOrStar state.pushStars c
  | .set set =>
    if set.isFirst && !set.negated && set.ranges.isEmpty && (c == '!' || c == '^') then
      some { state with pending := .set { set with negated := true }, previous := some c }
    else if c == ']' && !set.isFirst then
      some { state.push (.oneOf set.charSet) with pending := .none, previous := some c }
    else
      (set.next c).map fun next => { state with pending := .set next, previous := some c }

/-- The tokens when the text is over. Open braces and sets and a trailing backslash are refused. -/
def finish (state : State) : Option (List Token) :=
  let closed : Option State := match state.pending with
    | .none => some state
    | .escape | .set _ => none
    | .star _ => some (state.push .anyMany)
    | .doubleStar before =>
      if state.inner.current.isEmpty then some (state.push .leadingPath)
      else if state.startsPath before then some (state.replaceLast .trailingPath)
      else some state.pushStars
  closed.bind fun state => if state.inBraces then none else some state.inner.current

/-- Reads a path pattern. -/
def parse? (text : String) : Option (List Token) :=
  (text.toList.foldlM step {}).bind finish

/-- The pattern for a whole path; two stars alone match every path. -/
def wholePattern (tokens : List Token) : Expr :=
  let body := match tokens with
    | [.leadingPath] => anyBytes
    | tokens => sequenceOf (rowPatterns tokens)
  .sequence (.anchor .textStart) (.sequence body (.anchor .textEnd))

/-- The text of a row of literals. -/
def literalText? : List Token → Option (List Char)
  | [] => some []
  | .literal c :: rest => (literalText? rest).map (c :: ·)
  | _ :: _ => none

/-- A row that ends in a dot asks for an empty extension. -/
def endsInDot (tokens : List Token) : Bool :=
  match tokens.getLast? with
  | some (.literal c) => c == '.'
  | _ => false

/-- The row behind a star asks for an extension. Fixed text asks for one only if it is a single
dot; longer text is compared with the end of the path. -/
def asksForExtension (tokens : List Token) : Bool :=
  match literalText? tokens with
  | some text => text == ['.']
  | none => endsInDot tokens

/-- The pattern asks for the name of a file or for its extension, and not only for the text of a
path. -/
def asksForName : List Token → Bool
  | .leadingPath :: .anyMany :: rest => asksForExtension rest
  | .anyMany :: rest => asksForExtension rest
  | .leadingPath :: rest =>
    match literalText? rest with
    | some text => !text.isEmpty && !text.contains '/'
    | none => endsInDot rest
  | tokens => (literalText? tokens).isNone && endsInDot tokens

/-- The path ends in two dots, which stand for the directory above and for no name. -/
def endsAbove (path : List Char) : Bool :=
  path.reverse.takeWhile (· ≠ '/') == ['.', '.']

/-- A path pattern that can be matched. -/
structure Matcher where
  program : Program
  asksForName : Bool

namespace Matcher

def ofTokens (tokens : List Token) : Matcher :=
  { program := (wholePattern tokens).program, asksForName := Glob.asksForName tokens }

def isMatch (glob : Matcher) (path : String) : Bool :=
  let bytes := bytesOf path
  !(glob.asksForName && endsAbove bytes) && (glob.program.findFrom? bytes 0).isSome

end Matcher

/-- Levels that the patterns of a set may have. -/
def maxLevels : Nat := 250

/-- The path patterns among texts. There is no set of patterns if one of them is nested too deeply;
the ends of a path make each pattern a row of several parts. -/
def matchers? (texts : List String) : Option (List Matcher) :=
  let patterns := texts.filterMap parse?
  if patterns.all fun tokens => (rowShape tokens).depth + 1 ≤ maxLevels then
    some (patterns.map Matcher.ofTokens)
  else none

end PlcAudit.Glob
