import RowReduction.Binary64.Rounding

/-!
Binary formats whose numbers are binary64 numbers: half, single and double precision. A format
rounds a binary64 number to its nearest own number, and locates a number among its neighbours.
-/
namespace RowReduction

/-- A magnitude `significand * 2 ^ exponent` units, seen as a number of some format: the numbers of
the format next to it are `2 ^ exponent` units away, but half as far beneath it if `denseBelow`. -/
structure Neighborhood where
  significand : Nat
  exponent : Nat
  denseBelow : Bool

/-- The magnitude among all binary64 magnitudes. Beneath a power of two the numbers are twice as
dense, except where the exponent is the least one. -/
def Magnitude.neighborhood (m : Magnitude) : Neighborhood :=
  ⟨m.significand, m.exponent, m.significand = 0x10000000000000 ∧ m.exponent ≠ 0⟩

/-- A binary format with at most 53 significand bits and a range within that of binary64. Exponents
count from the unit `2 ^ (-1074)`. -/
structure BinaryFormat where
  precision : Nat
  leastExponent : Nat
  limitExponent : Nat
deriving DecidableEq

namespace BinaryFormat

/-- Half precision: 11 bits, least positive number `2 ^ (-24)`, everything below `2 ^ 16`. -/
def half : BinaryFormat := ⟨11, 1050, 1090⟩

/-- Single precision: 24 bits, least positive number `2 ^ (-149)`, everything below `2 ^ 128`. -/
def single : BinaryFormat := ⟨24, 925, 1202⟩

/-- Double precision: every binary64 number. -/
def double : BinaryFormat := ⟨53, 0, 2098⟩

/-- The exponent of the unit in the last place at a number of units. -/
def unitExponent (f : BinaryFormat) (units : Nat) : Nat :=
  max f.leastExponent (units.log2 + 1 - f.precision)

/-- The number of the format nearest to a binary64 number. -/
def round (f : BinaryFormat) : Binary64 → Binary64
  | .finite s m =>
    let exponent := f.unitExponent m.units
    let significand := roundHalfEven m.units (1 <<< exponent)
    if 1 <<< f.limitExponent ≤ significand <<< exponent then .infinite s
    else Binary64.round s significand 1 exponent
  | x => x

/-- The place of a magnitude of the format among the numbers of the format. -/
def neighborhood (f : BinaryFormat) (m : Magnitude) : Neighborhood :=
  let exponent := f.unitExponent m.units
  let significand := m.units >>> exponent
  ⟨significand, exponent, significand = 1 <<< (f.precision - 1) ∧ exponent ≠ f.leastExponent⟩

end BinaryFormat

end RowReduction
