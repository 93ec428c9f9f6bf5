import PlcAudit.Text.Pattern.Parser

/-!
Finding the places where a pattern matches. A pattern is laid out as a list of instructions and all
its ways to match are followed side by side through the text, in order of preference. Of the
matches that begin leftmost the preferred one is found, and searches go on behind the last match.
-/

namespace PlcAudit.Pattern

/-- One step of a pattern's layout. Unless it says otherwise, a step goes on with the next one. -/
inductive Step where
  | one (set : CharSet)
  | anchor (condition : Anchor)
  | fork (preferred other : Nat)
  | jump (target : Nat)
  | mark (slot : Nat)
  | accept

/-- The steps of a pattern that is laid out from the address `base` on. -/
def Expr.layout (base : Nat) : Expr → List Step
  | .empty => []
  | .one set => [.one set]
  | .anchor condition => [.anchor condition]
  | .sequence first second =>
    let head := first.layout base
    head ++ second.layout (base + head.length)
  | .either preferred other =>
    let head := preferred.layout (base + 1)
    let next := base + head.length + 2
    let tail := other.layout next
    .fork (base + 1) next :: head ++ .jump (next + tail.length) :: tail
  | .repeated greedy body =>
    let inner := body.layout (base + 1)
    let next := base + inner.length + 2
    (if greedy then .fork (base + 1) next else .fork next (base + 1)) :: inner ++ [.jump base]
  | .group index body =>
    .mark (2 * index) :: body.layout (base + 1) ++ [.mark (2 * index + 1)]

/-- A pattern ready for searching. -/
structure Program where
  steps : Array Step

/-- The whole match is recorded like a group with the number zero. -/
def Expr.program (expr : Expr) : Program :=
  ⟨((Expr.group 0 expr).layout 0 ++ [Step.accept]).toArray⟩

/-- Positions noted on the way, the latest note of a slot first. -/
abbrev Notes := List (Nat × Nat)

def Notes.at? (notes : Notes) (slot : Nat) : Option Nat :=
  (notes.find? fun note => note.1 == slot).map Prod.snd

/-- A way to go on: an address and the notes so far. -/
structure Thread where
  address : Nat
  notes : Notes

/-- Follows the steps that consume nothing. The result holds the threads that wait for a character
or have arrived, in order of preference; an address that was seen before is not followed again. -/
def expand (program : Program) (position : Nat) (before after : Option Char) :
    Nat → Nat → List Thread → List Thread
  | 0, _, _ => []
  | _, _, [] => []
  | fuel + 1, seen, thread :: rest =>
    if seen.testBit thread.address then expand program position before after fuel seen rest
    else
      let seen := seen ||| (1 <<< thread.address)
      match program.steps[thread.address]? with
      | some (.fork preferred other) =>
        expand program position before after fuel seen
          (⟨preferred, thread.notes⟩ :: ⟨other, thread.notes⟩ :: rest)
      | some (.jump target) =>
        expand program position before after fuel seen (⟨target, thread.notes⟩ :: rest)
      | some (.mark slot) =>
        let notes := (slot, position) :: thread.notes.filter fun note => note.1 != slot
        expand program position before after fuel seen (⟨thread.address + 1, notes⟩ :: rest)
      | some (.anchor condition) =>
        if condition.holds before after then
          expand program position before after fuel seen
            (⟨thread.address + 1, thread.notes⟩ :: rest)
        else expand program position before after fuel seen rest
      | some (.one _) => thread :: expand program position before after fuel seen rest
      | some .accept => thread :: expand program position before after fuel seen rest
      | none => expand program position before after fuel seen rest

/-- Takes the waiting threads over one character. The notes of the best thread that has arrived are
given too; threads below it are dropped. -/
def advance (program : Program) (next : Option Char) : List Thread → List Thread × Option Notes
  | [] => ([], none)
  | thread :: rest =>
    match program.steps[thread.address]? with
    | some .accept => ([], some thread.notes)
    | some (.one set) =>
      let (others, arrived) := advance program next rest
      if next.any set.contains then (⟨thread.address + 1, thread.notes⟩ :: others, arrived)
      else (others, arrived)
    | _ => advance program next rest

/-- Searches from a position on. New attempts start at every position until one has arrived. -/
def run (program : Program) (position : Nat) (before : Option Char) (threads : List Thread)
    (best : Option Notes) : List Char → Option Notes
  | [] =>
    let started := if best.isNone then threads ++ [⟨0, []⟩] else threads
    let waiting := expand program position before none
      (started.length + 2 * program.steps.size + 1) 0 started
    (advance program none waiting).2.or best
  | c :: rest =>
    let started := if best.isNone then threads ++ [⟨0, []⟩] else threads
    let waiting := expand program position before (some c)
      (started.length + 2 * program.steps.size + 1) 0 started
    let (next, arrived) := advance program (some c) waiting
    let best := arrived.or best
    if next.isEmpty && best.isSome then best
    else run program (position + 1) (some c) next best rest

/-- A place where a pattern matches, in characters, with the places of its groups. -/
structure Match where
  start : Nat
  stop : Nat
  groups : List (Nat × Nat × Nat)

/-- The places of the whole match and of the groups that took part in it. -/
def matchOf? (notes : Notes) : Option Match := do
  let start ← notes.at? 0
  let stop ← notes.at? 1
  let starts := notes.filter fun note => note.1 % 2 == 0 && note.1 != 0
  let indices := starts.map fun note => note.1 / 2
  let groups := indices.filterMap fun index => do
    return (index, ← notes.at? (2 * index), ← notes.at? (2 * index + 1))
  return { start, stop, groups }

/-- The leftmost match at or behind a position. -/
def Program.findFrom? (program : Program) (text : List Char) (position : Nat) : Option Match :=
  let before := if position == 0 then none else text[position - 1]?
  (run program position before [] none (text.drop position)).bind matchOf?

/-- The matches one after another. An empty match right behind the match before it is left out. -/
def findAllFrom (program : Program) (text : List Char) :
    Nat → Nat → Option Nat → List Match
  | 0, _, _ => []
  | fuel + 1, position, last =>
    if text.length < position then []
    else match program.findFrom? text position with
      | none => []
      | some found =>
        if found.start == found.stop && last == some found.stop then
          findAllFrom program text fuel (position + 1) last
        else
          found :: findAllFrom program text fuel found.stop (some found.stop)

/-- All matches in a text, none overlapping another. -/
def Program.findAll (program : Program) (text : List Char) : List Match :=
  findAllFrom program text (2 * text.length + 3) 0 none

def Program.isMatch (program : Program) (text : String) : Bool :=
  (program.findFrom? text.toList 0).isSome

/-- Number of matches in a text. -/
def Program.count (program : Program) (text : String) : Nat :=
  (program.findAll text.toList).length

/-- The part of the text between two positions. -/
def slice (text : List Char) (start stop : Nat) : String :=
  String.ofList ((text.drop start).take (stop - start))

def Match.text (found : Match) (source : List Char) : String :=
  slice source found.start found.stop

/-- The text of a group, if the group took part in the match. -/
def Match.group? (found : Match) (source : List Char) (index : Nat) : Option String :=
  (found.groups.find? fun group => group.1 == index).map fun (_, start, stop) =>
    slice source start stop

/-- The search program for a pattern text. A text that is no pattern matches nowhere. -/
def compile (text : String) : Program :=
  match parse? text with
  | some expr => expr.program
  | none => ⟨#[]⟩

end PlcAudit.Pattern
