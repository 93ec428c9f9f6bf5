import PlcAudit.Text.Alphabet

/-!
Search patterns for source text: the expressions themselves, what a single position or character
has to satisfy, and the set of characters an item stands for.
-/

namespace PlcAudit.Pattern

/-- One item of a set of characters. -/
inductive Item where
  | range (first last : Char)
  | word
  | decimal
  | blank
  | notWord
  | notDecimal
  | notBlank
  deriving DecidableEq

/-- A set of characters, possibly given by what it leaves out, possibly blind to letter case. -/
structure CharSet where
  items : List Item
  negated : Bool := false
  anyCase : Bool := false
  deriving DecidableEq

def Item.holds (c : Char) : Item → Bool
  | .range first last => first ≤ c && c ≤ last
  | .word => Text.isWord c
  | .decimal => Text.isDecimal c
  | .blank => Text.isBlank c
  | .notWord => !Text.isWord c
  | .notDecimal => !Text.isDecimal c
  | .notBlank => !Text.isBlank c

/-- The characters that count as the same letter as `c`. The long s and the Kelvin sign are
variants of two ASCII letters. -/
def caseVariants (c : Char) : List Char :=
  if c == 'k' || c == 'K' || c == '\u212A' then ['k', 'K', '\u212A']
  else if c == 's' || c == 'S' || c == '\u017F' then ['s', 'S', '\u017F']
  else if c.isLower then [c, c.toUpper]
  else if c.isUpper then [c, c.toLower]
  else [c]

/-- The set contains the character. A set blind to case is completed before it is negated. -/
def CharSet.contains (set : CharSet) (c : Char) : Bool :=
  let listed := fun (variant : Char) => set.items.any (·.holds variant)
  let found := if set.anyCase then (caseVariants c).any listed else listed c
  found != set.negated

/-- A condition on the characters around a position. -/
inductive Anchor where
  | textStart
  | textEnd
  | lineStart
  | lineEnd
  | wordEdge
  | noWordEdge
  deriving DecidableEq

/-- Exactly one of two neighbours is a word character; outside the text there is none. -/
def atWordEdge (before after : Option Char) : Bool :=
  before.any Text.isWord != after.any Text.isWord

def Anchor.holds (before after : Option Char) : Anchor → Bool
  | .textStart => before.isNone
  | .textEnd => after.isNone
  | .lineStart => before.all (· == '\n')
  | .lineEnd => after.all (· == '\n')
  | .wordEdge => atWordEdge before after
  | .noWordEdge => !atWordEdge before after

/-- A search pattern. Of two ways to match, the earlier alternative is preferred, and a repetition
is preferred long when it is greedy and short otherwise. -/
inductive Expr where
  | empty
  | one (set : CharSet)
  | anchor (condition : Anchor)
  | sequence (first second : Expr)
  | either (preferred other : Expr)
  | repeated (greedy : Bool) (body : Expr)
  | group (index : Nat) (body : Expr)
  deriving DecidableEq

/-- A body that may be left out. -/
def Expr.optional (greedy : Bool) (body : Expr) : Expr :=
  if greedy then .either body .empty else .either .empty body

/-- Exactly `count` times the body, then the rest. -/
def Expr.times (body : Expr) (rest : Expr) : Nat → Expr
  | 0 => rest
  | count + 1 => .sequence body (body.times rest count)

/-- At most `count` times the body. -/
def Expr.atMost (greedy : Bool) (body : Expr) : Nat → Expr
  | 0 => .empty
  | count + 1 => .optional greedy (.sequence body (body.atMost greedy count))

end PlcAudit.Pattern
