import PlcAudit.Text.Pattern.Basic

/-!
Reading patterns from their usual text form: classes, groups, alternatives, counted and lazy
repetitions, anchors and the flags `i` (letter case), `m` (anchors at lines) and `s` (the dot also
matches line feeds). A text that is no pattern has no reading.
-/

namespace PlcAudit.Pattern

/-- Reading modes in force at a place of the pattern. -/
structure Flags where
  anyCase : Bool := false
  byLine : Bool := false
  dotAll : Bool := false

/-- What is left to read, and how many groups were opened so far. -/
structure Cursor where
  rest : List Char
  groups : Nat

private def itemOf? : Char → Option Item
  | 'w' => some .word
  | 'd' => some .decimal
  | 's' => some .blank
  | 'W' => some .notWord
  | 'D' => some .notDecimal
  | 'S' => some .notBlank
  | _ => none

private def escaped : Char → Char
  | 'n' => '\n'
  | 't' => '\t'
  | 'r' => '\r'
  | c => c

/-- The set for one class item or character under the flags. -/
private def setOf (flags : Flags) (items : List Item) (negated : Bool) : Expr :=
  .one { items, negated, anyCase := flags.anyCase }

private def literal (flags : Flags) (c : Char) : Expr :=
  setOf flags [.range c c] false

/-- One end of a range inside brackets. -/
private def rangeEnd? : List Char → Option (Char × List Char)
  | '\\' :: c :: rest => if (itemOf? c).isSome then none else some (escaped c, rest)
  | ']' :: _ => none
  | c :: rest => some (c, rest)
  | [] => none

/-- The items up to the closing bracket. -/
private def bracketItems : Nat → List Item → List Char → Option (List Item × List Char)
  | 0, _, _ => none
  | fuel + 1, items, text =>
    match text with
    | [] => none
    | ']' :: rest => some (items.reverse, rest)
    | '\\' :: c :: rest =>
      match itemOf? c with
      | some item => bracketItems fuel (item :: items) rest
      | none => fromCharacter fuel items (escaped c) rest
    | c :: rest => fromCharacter fuel items c rest
where
  /-- A character, or a range when a minus sign and another end follow. -/
  fromCharacter (fuel : Nat) (items : List Item) (first : Char) (rest : List Char) :
      Option (List Item × List Char) :=
    match fuel with
    | 0 => none
    | fuel + 1 =>
      match rest with
      | '-' :: after =>
        match rangeEnd? after with
        | some (last, beyond) => bracketItems fuel (.range first last :: items) beyond
        | none => bracketItems fuel (.range first first :: items) rest
      | _ => bracketItems fuel (.range first first :: items) rest

private def bracket? (flags : Flags) : List Char → Option (Expr × List Char)
  | '^' :: rest =>
    (bracketItems (2 * rest.length + 2) [] rest).map fun (items, rest) =>
      (setOf flags items true, rest)
  | rest =>
    (bracketItems (2 * rest.length + 2) [] rest).map fun (items, rest) =>
      (setOf flags items false, rest)

/-- Decimal digits at the start of a text and what follows them. -/
private def number? (text : List Char) : Option (Nat × List Char) :=
  let digits := text.takeWhile Char.isDigit
  if digits.isEmpty then none
  else
    let value := digits.foldl (fun n c => 10 * n + (c.toNat - '0'.toNat)) 0
    some (value, text.dropWhile Char.isDigit)

/-- The bounds of a counted repetition, from after its opening brace. -/
private def bounds? (text : List Char) : Option (Nat × Option Nat × List Char) :=
  match number? text with
  | some (least, '\x7d' :: rest) => some (least, some least, rest)
  | some (least, ',' :: '\x7d' :: rest) => some (least, none, rest)
  | some (least, ',' :: rest) =>
    match number? rest with
    | some (most, '\x7d' :: rest) => some (least, some most, rest)
    | _ => none
  | _ => none

/-- A question mark after a repetition makes it lazy. -/
private def lazyMark : List Char → Bool × List Char
  | '?' :: rest => (false, rest)
  | rest => (true, rest)

/-- Applies the repetition mark that follows an atom, if there is one. -/
private def repeatedAtom? (atom : Expr) (text : List Char) : Option (Expr × List Char) :=
  match text with
  | '*' :: rest =>
    let (greedy, rest) := lazyMark rest
    some (.repeated greedy atom, rest)
  | '+' :: rest =>
    let (greedy, rest) := lazyMark rest
    some (.sequence atom (.repeated greedy atom), rest)
  | '?' :: rest =>
    let (greedy, rest) := lazyMark rest
    some (.optional greedy atom, rest)
  | '\x7b' :: rest =>
    (bounds? rest).map fun (least, most, rest) =>
      let (greedy, rest) := lazyMark rest
      match most with
      | none => (atom.times (.repeated greedy atom) least, rest)
      | some most => (atom.times (atom.atMost greedy (most - least)) least, rest)
  | rest => some (atom, rest)

/-- Flag letters up to a colon or a closing parenthesis; the mark that ended them is given too. -/
private def flagLetters? (flags : Flags) : List Char → Option (Flags × Char × List Char)
  | 'i' :: rest => flagLetters? { flags with anyCase := true } rest
  | 'm' :: rest => flagLetters? { flags with byLine := true } rest
  | 's' :: rest => flagLetters? { flags with dotAll := true } rest
  | ':' :: rest => some (flags, ':', rest)
  | ')' :: rest => some (flags, ')', rest)
  | _ => none

private def escapeAtom? (flags : Flags) (c : Char) : Option Expr :=
  match c with
  | 'b' => some (.anchor .wordEdge)
  | 'B' => some (.anchor .noWordEdge)
  | 'A' => some (.anchor .textStart)
  | 'z' => some (.anchor .textEnd)
  | c =>
    match itemOf? c with
    | some item => some (setOf flags [item] false)
    | none => some (literal flags (escaped c))

/-- A single character of the pattern that is no bracket, group or escape. -/
private def plainAtom (flags : Flags) : Char → Expr
  | '.' => if flags.dotAll then .one { items := [], negated := true }
    else .one { items := [.range '\n' '\n'], negated := true }
  | '^' => .anchor (if flags.byLine then .lineStart else .textStart)
  | '$' => .anchor (if flags.byLine then .lineEnd else .textEnd)
  | c => literal flags c

mutual

/-- Alternatives up to the end of the text or a closing parenthesis, which is left to read. -/
private def alternatives? (flags : Flags) : Nat → Cursor → Option (Expr × Cursor)
  | 0, _ => none
  | fuel + 1, cursor =>
    match sequence? flags fuel cursor with
    | some (first, flags, { rest := '|' :: rest, groups }) =>
      (alternatives? flags fuel ⟨rest, groups⟩).map fun (others, cursor) =>
        (.either first others, cursor)
    | some (first, _, cursor) => some (first, cursor)
    | none => none

/-- Atoms with their repetitions up to the end of an alternative, and the flags then in force. -/
private def sequence? (flags : Flags) : Nat → Cursor → Option (Expr × Flags × Cursor)
  | 0, _ => none
  | fuel + 1, cursor =>
    match cursor.rest with
    | [] => some (.empty, flags, cursor)
    | '|' :: _ => some (.empty, flags, cursor)
    | ')' :: _ => some (.empty, flags, cursor)
    | '(' :: '?' :: rest =>
      match flagLetters? flags rest with
      | some (flags, ')', rest) => sequence? flags fuel ⟨rest, cursor.groups⟩
      | some (inner, _, rest) =>
        match alternatives? inner fuel ⟨rest, cursor.groups⟩ with
        | some (body, { rest := ')' :: rest, groups }) => continue? flags fuel body ⟨rest, groups⟩
        | _ => none
      | none => none
    | '(' :: rest =>
      match alternatives? flags fuel ⟨rest, cursor.groups + 1⟩ with
      | some (body, { rest := ')' :: rest, groups }) =>
        continue? flags fuel (.group (cursor.groups + 1) body) ⟨rest, groups⟩
      | _ => none
    | '[' :: rest =>
      match bracket? flags rest with
      | some (atom, rest) => continue? flags fuel atom ⟨rest, cursor.groups⟩
      | none => none
    | '\\' :: c :: rest =>
      match escapeAtom? flags c with
      | some atom => continue? flags fuel atom ⟨rest, cursor.groups⟩
      | none => none
    | c :: rest => continue? flags fuel (plainAtom flags c) ⟨rest, cursor.groups⟩

/-- An atom was read: its repetition mark and what follows it. -/
private def continue? (flags : Flags) : Nat → Expr → Cursor → Option (Expr × Flags × Cursor)
  | 0, _, _ => none
  | fuel + 1, atom, cursor =>
    match repeatedAtom? atom cursor.rest with
    | some (item, rest) =>
      (sequence? flags fuel ⟨rest, cursor.groups⟩).map fun (others, flags, cursor) =>
        (.sequence item others, flags, cursor)
    | none => none

end

/-- Reads a whole text as a pattern. Every step of the reader consumes a character or ends a group,
so three steps for each character and a few more are enough. -/
def parse? (text : String) : Option Expr :=
  match alternatives? {} (3 * text.length + 3) ⟨text.toList, 0⟩ with
  | some (expr, { rest := [], .. }) => some expr
  | _ => none

end PlcAudit.Pattern
