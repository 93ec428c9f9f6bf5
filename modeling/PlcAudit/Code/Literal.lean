import PlcAudit.Code.Basic
import PlcAudit.Text.Line

/-!
Values of literals. Integers may be separated by underscores and may name their base before a
number sign, as in `16#FF`; a base outside 2 to 36 cannot be read at all.
-/

namespace PlcAudit.Code

/-- The integer as a 64-bit signed one, if it is in range. -/
def narrow? (value : Int) : Option Int64 :=
  if Int64.minValue.toInt ≤ value ∧ value ≤ Int64.maxValue.toInt then some (Int64.ofInt value)
  else none

/-- Value of a digit, the letters following nine. -/
def digitValue? (c : Char) : Option Nat :=
  if c.isDigit then some (c.toNat - '0'.toNat)
  else if 'a' ≤ c ∧ c ≤ 'z' then some (c.toNat - 'a'.toNat + 10)
  else if 'A' ≤ c ∧ c ≤ 'Z' then some (c.toNat - 'A'.toNat + 10)
  else none

/-- Reads digits behind those that have made up a number so far. -/
def digitsFrom? (base value : Nat) : List Char → Option Nat
  | [] => some value
  | c :: rest =>
    match digitValue? c with
    | some digit => if digit < base then digitsFrom? base (base * value + digit) rest else none
    | none => none

/-- The number that a list of digits denotes; there has to be a digit. -/
def natural? (base : Nat) : List Char → Option Nat
  | [] => none
  | digits => digitsFrom? base 0 digits

/-- Digits with a sign before them or none, within 64 bits. -/
def signed? (base : Nat) : List Char → Option Int64
  | '-' :: digits => (natural? base digits).bind fun value => narrow? (-value)
  | '+' :: digits => (natural? base digits).bind fun value => narrow? value
  | digits => (natural? base digits).bind fun value => narrow? value

/-- Digits of a base as it stands before the number sign, within 32 bits. -/
def baseNumber? : List Char → Option Nat
  | '+' :: digits => (natural? 10 digits).filter (· < UInt32.size)
  | digits => (natural? 10 digits).filter (· < UInt32.size)

/-- Base and digits of an integer text, without the underscores. -/
def baseAndDigits? (text : String) : Option (Nat × List Char) :=
  let plain := text.toList.filter (· != '_')
  match Text.cutFirst? ['#'] plain with
  | some (base, digits) => (baseNumber? base).map fun base => (base, digits)
  | none => some (10, plain)

/-- Bases that digits and letters can write. -/
def isBase (base : Nat) : Bool := 2 ≤ base && base ≤ 36

namespace LiteralKind

/-- The literal names a base that cannot be read. -/
def hasBadBase (kind : LiteralKind) (text : String) : Bool :=
  kind == .integer && (baseAndDigits? text).any fun (base, _) => !isBase base

/-- The integer that a literal denotes. -/
def int? (kind : LiteralKind) (text : String) : Option Int64 :=
  if kind == .integer then
    (baseAndDigits? text).bind fun (base, digits) =>
      if isBase base then signed? base digits else none
  else none

/-- The truth value that a literal denotes. -/
def bool? (kind : LiteralKind) (text : String) : Option Bool :=
  if kind == .boolean then
    match Text.upper text with
    | "TRUE" | "1" => some true
    | "FALSE" | "0" => some false
    | _ => none
  else none

end LiteralKind

end PlcAudit.Code
