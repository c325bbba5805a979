/-!
# Decimal numbers

Numbers as documents write them, taken apart into digits and exponent, and which of them double
precision has room for. `Decimal.fits` rounds a number as a whole. `Decimal.fitsInSteps` rounds its
leading digits and its power of ten, each by itself, and their product; near the limit this refuses
numbers that `fits` admits.
-/
namespace SchemaLayout

/-- The parts of a number without its sign. -/
structure Decimal where
  /-- The digits in front of the point, at least one. -/
  whole : List Char
  /-- The digits behind the point. -/
  fraction : List Char
  exponentNegative : Bool
  /-- The digits of the exponent. -/
  exponent : List Char

namespace Decimal

/-! ## Reading -/

/-- The digits that a text begins with, at least one, and the text behind them. -/
def readDigits (cs : List Char) : Option (List Char × List Char) :=
  match cs.span Char.isDigit with
  | ([], _) => none
  | (digits, rest) => some (digits, rest)

/-- The digits of a fraction, if there is one. -/
def readFraction (cs : List Char) : Option (List Char × List Char) :=
  match cs with
  | '.' :: rest => readDigits rest
  | _ => some ([], cs)

/-- The exponent of a number, if there is one, and whether it is negative. -/
def readExponent (cs : List Char) : Option (Bool × List Char × List Char) :=
  match cs with
  | 'e' :: rest | 'E' :: rest =>
    match rest with
    | '-' :: rest => (readDigits rest).map (true, ·)
    | '+' :: rest => (readDigits rest).map (false, ·)
    | _ => (readDigits rest).map (false, ·)
  | _ => some (false, [], cs)

/-- A number without its sign. A first zero stands alone in front of the point. -/
def read (cs : List Char) : Option (Decimal × List Char) := do
  let (whole, rest) ← match cs with
    | '0' :: rest => some (['0'], rest)
    | _ => readDigits cs
  let (fraction, rest) ← readFraction rest
  let (negative, exponent, rest) ← readExponent rest
  return (⟨whole, fraction, negative, exponent⟩, rest)

/-! ## Double precision -/

/-- The number with one more digit. -/
def pushDigit (number : Nat) (c : Char) : Nat := 10 * number + (c.toNat - '0'.toNat)

/-- The number of a list of digits. -/
def digitsValue (digits : List Char) : Nat := digits.foldl pushDigit 0

/-- The written exponent. -/
def power (decimal : Decimal) : Int :=
  if decimal.exponentNegative then -(digitsValue decimal.exponent : Int)
  else digitsValue decimal.exponent

/-- Numbers from here on round to none of double precision: half a step past the largest. -/
def doubleLimit : Nat := Nat.pow 2 1024 - Nat.pow 2 970

/-- Whether the number, rounded as a whole, is one of double precision. -/
def fits (decimal : Decimal) : Bool :=
  let digits := decimal.whole ++ decimal.fraction
  let significand := digitsValue digits
  let width := (digits.dropWhile (· == '0')).length
  let power := decimal.power - decimal.fraction.length
  if significand = 0 ∨ width + power ≤ 300 then true
  else if 320 < width + power then false
  else significand * Nat.pow 10 power.toNat < doubleLimit * Nat.pow 10 (-power).toNat

/-- The number of double precision that is nearest to a whole number, by its leading 53 bits; of two
equally near ones it is the one whose last bit is zero. -/
def nearestDouble (number : Nat) : Nat :=
  let step := Nat.pow 2 (number.log2 - 52)
  let steps := number / step
  let rest := number % step
  step * (if 2 * rest < step ∨ 2 * rest = step ∧ steps % 2 = 0 then steps else steps + 1)

/-- The number of 64 bits that a number becomes with as many of the digits as it has room for, and
the digits that are left. -/
def leading (number : Nat) : List Char → Nat × List Char
  | [] => (number, [])
  | c :: rest =>
    if pushDigit number c < 0x10000000000000000 then leading (pushDigit number c) rest
    else (number, c :: rest)

/-- Whether the leading digits, rounded, times the power of ten, rounded, round to a number of
double precision. Digits of the fraction that are left count for nothing, and powers of ten beyond
the largest one of double precision have no room. -/
def fitsInSteps (decimal : Decimal) : Bool :=
  let (start, wholeLeft) := leading 0 decimal.whole
  let (significand, fractionLeft) := leading start decimal.fraction
  let places := decimal.fraction.length - fractionLeft.length
  let power := decimal.power + wholeLeft.length - places
  if significand = 0 ∨ power ≤ 0 then true
  else if 308 < power then false
  else nearestDouble significand * nearestDouble (Nat.pow 10 power.toNat) < doubleLimit

end Decimal

end SchemaLayout
