import RowReduction.Binary64.Rounding

/-!
Decimal forms of exact values: a string of digits, the first of them nonzero, and the power of ten
that the first digit counts. The digits come from rounding the value to a number of significant
digits or of places, or, for a magnitude, from the shortest decimal that reads back as it.
-/
namespace RowReduction

/-- The positive decimal `d₀.d₁d₂… * 10 ^ exponent`. -/
structure Decimal where
  digits : List Char
  exponent : Int
deriving DecidableEq

namespace Decimal

/-- The decimal `coefficient * 10 ^ power`, for a positive coefficient. -/
def ofCoefficient (coefficient : Nat) (power : Int) : Decimal :=
  let digits := Nat.toDigits 10 coefficient
  ⟨digits, power + (digits.length - 1 : Nat)⟩

/-- Drops the zeros at the end of the digits. -/
def trim (d : Decimal) : Decimal :=
  { d with digits := (d.digits.reverse.dropWhile (· == '0')).reverse }

/-- The digits in front of the point, at least one. -/
def integerDigits (d : Decimal) : List Char :=
  if d.exponent < 0 then ['0']
  else
    let places := d.exponent.toNat + 1
    d.digits.take places ++ List.replicate (places - d.digits.length) '0'

/-- The digits behind the point. -/
def fractionDigits (d : Decimal) : List Char :=
  if d.exponent < 0 then List.replicate ((-d.exponent).toNat - 1) '0' ++ d.digits
  else d.digits.drop (d.exponent.toNat + 1)

/-- The numerator and denominator of `num / den * 10 ^ power`. -/
def scaled (num den : Nat) (power : Int) : Nat × Nat :=
  (num * powerOfTen power.toNat, den * powerOfTen (-power).toNat)

/-- Whether `10 ^ power ≤ num / den`. -/
def powerLe (num den : Nat) (power : Int) : Bool :=
  let (n, d) := scaled num den (-power)
  d ≤ n

/-- The largest power of ten at most `num / den`, for positive `num` and `den`. The binary exponent
times a rational just above the logarithm of two to base ten is off by one at most. -/
def leadingPower (num den : Nat) : Int :=
  let estimate := (binaryExponent num den * 1233).fdiv 4096
  if powerLe num den (estimate + 1) then estimate + 1
  else if powerLe num den estimate then estimate
  else estimate - 1

/-- The exact positive value `num / den` rounded to `count` significant digits, a tie going to the
even digit. -/
def significant (num den count : Nat) : Decimal :=
  let power := leadingPower num den - (count - 1 : Nat)
  let (n, d) := scaled num den (-power)
  ofCoefficient (roundHalfEven n d) power

/-- The coefficient of the exact value `num / den` rounded to `places` places behind the point. -/
def coefficientAt (num den places : Nat) : Nat :=
  roundHalfEven (num * powerOfTen places) den

end Decimal

namespace Magnitude

/-- The magnitude as a quotient of natural numbers. -/
def ratio (m : Magnitude) : Nat × Nat :=
  (m.significand <<< (m.exponent - 1074), 1 <<< (1074 - m.exponent))

end Magnitude

end RowReduction
