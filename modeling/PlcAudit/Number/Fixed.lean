/-!
Numbers with a fixed count of decimal places. A binary fraction is rounded exactly: to the nearest
decimal, and to the one with an even last digit where two are equally near.
-/

namespace PlcAudit.Number

/-- Quotient rounded to the nearest whole number, halves to the even one. -/
def roundedQuotient (numerator denominator : Nat) : Nat :=
  let quotient := numerator / denominator
  let twice := 2 * (numerator % denominator)
  if twice < denominator then quotient
  else if denominator < twice then quotient + 1
  else if quotient % 2 == 0 then quotient
  else quotient + 1

/-- A whole number of units of `10 ^ -places`, written with that many places. -/
def decimalText (places value : Nat) : String :=
  let fraction := toString (value % Nat.pow 10 places)
  let whole := toString (value / Nat.pow 10 places)
  if places == 0 then whole
  else whole ++ "." ++ String.ofList (List.replicate (places - fraction.length) '0') ++ fraction

/-- The text of `mantissa * 2 ^ (exponent - bias)`. -/
def binaryText (places mantissa exponent bias : Nat) : String :=
  let scaled := mantissa * Nat.pow 10 places
  if bias ≤ exponent then decimalText places (scaled * Nat.pow 2 (exponent - bias))
  else decimalText places (roundedQuotient scaled (Nat.pow 2 (bias - exponent)))

/-- Text of a binary number given by its bits, with `fractionBits` bits behind the leading one and
`exponentBits` bits of exponent. -/
def bitsText (places fractionBits exponentBits bits : Nat) : String :=
  let fraction := bits % Nat.pow 2 fractionBits
  let exponent := bits / Nat.pow 2 fractionBits % Nat.pow 2 exponentBits
  let negative := bits / Nat.pow 2 (fractionBits + exponentBits) % 2 == 1
  let sign := if negative then "-" else ""
  let bias := Nat.pow 2 (exponentBits - 1) - 1 + fractionBits
  if exponent == Nat.pow 2 exponentBits - 1 then
    if fraction == 0 then sign ++ "inf" else "NaN"
  else if exponent == 0 then sign ++ binaryText places fraction 1 bias
  else sign ++ binaryText places (Nat.pow 2 fractionBits + fraction) exponent bias

/-- A double with a fixed count of places. -/
def fixed (places : Nat) (value : Float) : String :=
  bitsText places 52 11 value.toBits.toNat

/-- A single-precision number with a fixed count of places. -/
def fixedSingle (places : Nat) (value : Float32) : String :=
  bitsText places 23 8 value.toBits.toNat

end PlcAudit.Number
