import PlcAudit.Json.Basic
import PlcAudit.Number.Fixed

/-!
Reading JSON texts. The reader takes exactly one value with blanks around it and refuses everything
else: stray characters, unpaired surrogate escapes, numbers beyond the double range, and values
that are nested too deeply.
-/

namespace PlcAudit.Json

private def skipBlanks (text : List Char) : List Char :=
  text.dropWhile fun c => c == ' ' || c == '\n' || c == '\t' || c == '\r'

private def hexValue? (c : Char) : Option Nat :=
  if c.isDigit then some (c.toNat - '0'.toNat)
  else if 'a' ≤ c ∧ c ≤ 'f' then some (c.toNat - 'a'.toNat + 10)
  else if 'A' ≤ c ∧ c ≤ 'F' then some (c.toNat - 'A'.toNat + 10)
  else none

private def hexUnit? : List Char → Option (Nat × List Char)
  | a :: b :: c :: d :: rest => do
    let value := ((← hexValue? a) * 16 + (← hexValue? b)) * 256 +
      (← hexValue? c) * 16 + (← hexValue? d)
    return (value, rest)
  | _ => none

/-- The character of an escape `\u....`; characters beyond the basic plane take two escapes. -/
private def unicodeEscape? (text : List Char) : Option (Char × List Char) := do
  let (high, rest) ← hexUnit? text
  if 0xD800 ≤ high ∧ high < 0xDC00 then
    match rest with
    | '\\' :: 'u' :: rest =>
      let (low, rest) ← hexUnit? rest
      if 0xDC00 ≤ low ∧ low < 0xE000 then
        return (Char.ofNat (0x10000 + (high - 0xD800) * 0x400 + (low - 0xDC00)), rest)
      else none
    | _ => none
  else if 0xDC00 ≤ high ∧ high < 0xE000 then none
  else return (Char.ofNat high, rest)

private def simpleEscape? : Char → Option Char
  | '\"' => some '\"'
  | '\\' => some '\\'
  | '/' => some '/'
  | 'b' => some '\x08'
  | 'f' => some '\x0c'
  | 'n' => some '\n'
  | 'r' => some '\r'
  | 't' => some '\t'
  | _ => none

/-- The characters of a string up to its closing quote. -/
private def stringBody? : Nat → List Char → List Char → Option (String × List Char)
  | 0, _, _ => none
  | fuel + 1, done, text =>
    match text with
    | [] => none
    | '\"' :: rest => some (String.ofList done.reverse, rest)
    | '\\' :: 'u' :: rest =>
      match unicodeEscape? rest with
      | some (c, rest) => stringBody? fuel (c :: done) rest
      | none => none
    | '\\' :: c :: rest =>
      match simpleEscape? c with
      | some c => stringBody? fuel (c :: done) rest
      | none => none
    | c :: rest => if c.toNat < 0x20 || c == '\\' then none else stringBody? fuel (c :: done) rest

private def digitsValue (digits : List Char) : Nat :=
  digits.foldl (fun value c => 10 * value + (c.toNat - '0'.toNat)) 0

/-- Least magnitude that no longer rounds to a finite double. -/
private def doubleBound : Nat := Nat.pow 2 1024 - Nat.pow 2 970

/-- The nearest number with 53 binary digits, halves to the even one. -/
private def nearestDouble (value : Nat) : Nat :=
  let unit := Nat.pow 2 (Nat.log2 value - 52)
  Number.roundedQuotient value unit * unit

/-- Adds digits to a number as long as it fits 64 bits, and gives the digits that are left. -/
private def withDigits : Nat → List Char → Nat × List Char
  | value, [] => (value, [])
  | value, digit :: rest =>
    let next := 10 * value + (digit.toNat - '0'.toNat)
    if next < UInt64.size then withDigits next rest else (value, digit :: rest)

/-- The leading digits of a decimal that fit 64 bits, and the power of ten that belongs to them. -/
private def leadingDigits (whole fraction : List Char) : Nat × Int :=
  let (value, unread) := withDigits 0 whole
  let (value, ignored) := withDigits value fraction
  (value, (unread.length : Int) - ((fraction.length : Int) - ignored.length))

/-- The leading digits times a power of ten, each as a double, do not overflow. -/
private def isFinite (leading : Nat) (exponent : Int) : Bool :=
  if exponent < 0 || leading == 0 then true
  else if 308 < exponent then false
  else nearestDouble leading * nearestDouble (Nat.pow 10 exponent.toNat) < doubleBound

/-- An exponent part, or zero when there is none. -/
private def exponentPart? : List Char → Option (Int × Bool × List Char)
  | c :: rest =>
    if c == 'e' || c == 'E' then
      let (negative, rest) := match rest with
        | '-' :: rest => (true, rest)
        | '+' :: rest => (false, rest)
        | rest => (false, rest)
      let digits := rest.takeWhile Char.isDigit
      if digits.isEmpty then none
      else
        let value : Int := digitsValue digits
        some (if negative then -value else value, true, rest.dropWhile Char.isDigit)
    else some (0, false, c :: rest)
  | [] => some (0, false, [])

/-- A fraction part, or none of it. -/
private def fractionPart? : List Char → Option (List Char × List Char)
  | '.' :: rest =>
    let digits := rest.takeWhile Char.isDigit
    if digits.isEmpty then none else some (digits, rest.dropWhile Char.isDigit)
  | rest => some ([], rest)

private def unsignedNumber? (negative : Bool) (text : List Char) : Option (Json × List Char) := do
  let whole := text.takeWhile Char.isDigit
  if whole.isEmpty || (whole.head? == some '0' && 1 < whole.length) then none
  let (fraction, rest) ← fractionPart? (text.dropWhile Char.isDigit)
  let (exponent, hasExponent, rest) ← exponentPart? rest
  let mantissa := digitsValue (whole ++ fraction)
  let signed : Int := if negative then -mantissa else mantissa
  if fraction.isEmpty && !hasExponent && !(negative && mantissa == 0) &&
      Int64.minValue.toInt ≤ signed && signed < UInt64.size then
    return (.int signed, rest)
  else
    let (leading, power) := leadingDigits whole fraction
    if isFinite leading (power + exponent) then
      return (.decimal signed (exponent - fraction.length), rest)
    else none

private def number? : List Char → Option (Json × List Char)
  | '-' :: rest => unsignedNumber? true rest
  | rest => unsignedNumber? false rest

mutual

/-- A value at the start of a text; `depth` more levels may be opened. -/
private def value? : Nat → Nat → List Char → Option (Json × List Char)
  | 0, _, _ => none
  | fuel + 1, depth, text =>
    match skipBlanks text with
    | 'n' :: 'u' :: 'l' :: 'l' :: rest => some (.null, rest)
    | 't' :: 'r' :: 'u' :: 'e' :: rest => some (.bool true, rest)
    | 'f' :: 'a' :: 'l' :: 's' :: 'e' :: rest => some (.bool false, rest)
    | '\"' :: rest =>
      (stringBody? (rest.length + 1) [] rest).map fun (text, rest) => (.string text, rest)
    | '[' :: rest =>
      match depth with
      | 0 => none
      | depth + 1 =>
        match skipBlanks rest with
        | ']' :: rest => some (.array [], rest)
        | rest => items? fuel depth [] rest
    | '\x7b' :: rest =>
      match depth with
      | 0 => none
      | depth + 1 =>
        match skipBlanks rest with
        | '\x7d' :: rest => some (.object [], rest)
        | rest => members? fuel depth [] rest
    | rest => number? rest

private def items? : Nat → Nat → List Json → List Char → Option (Json × List Char)
  | 0, _, _, _ => none
  | fuel + 1, depth, done, text =>
    match value? fuel depth text with
    | none => none
    | some (item, rest) =>
      match skipBlanks rest with
      | ',' :: rest => items? fuel depth (item :: done) rest
      | ']' :: rest => some (.array (item :: done).reverse, rest)
      | _ => none

private def members? :
    Nat → Nat → List (String × Json) → List Char → Option (Json × List Char)
  | 0, _, _, _ => none
  | fuel + 1, depth, done, text =>
    match skipBlanks text with
    | '\"' :: rest =>
      match stringBody? (rest.length + 1) [] rest with
      | none => none
      | some (name, rest) =>
        match skipBlanks rest with
        | ':' :: rest =>
          match value? fuel depth rest with
          | none => none
          | some (item, rest) =>
            match skipBlanks rest with
            | ',' :: rest => members? fuel depth ((name, item) :: done) rest
            | '\x7d' :: rest => some (.object ((name, item) :: done).reverse, rest)
            | _ => none
        | _ => none
    | _ => none

end

/-- Reads a whole text, with at most `depth` arrays and objects inside one another. -/
def parse? (depth : Nat) (text : String) : Option Json :=
  match value? (2 * text.length + 2) depth text.toList with
  | some (json, rest) => if (skipBlanks rest).isEmpty then some json else none
  | none => none

end PlcAudit.Json
