import RowReduction.Binary64.Arithmetic

/-!
Binary64 numbers from integers, quotients, decimals and bit patterns, and back to integers. Each
conversion to a number rounds once, to nearest with ties to even.
-/
namespace RowReduction

namespace Binary64

/-- The number nearest to `num / den`. -/
def ofRatio (negative : Bool) (num den : Nat) : Binary64 := round negative num den 1074

/-- The number nearest to an integer. -/
def ofInt (i : Int) : Binary64 := ofRatio (decide (i < 0)) i.natAbs 1

def ofNat (n : Nat) : Binary64 := ofInt n

/-- The number nearest to `digits * 10 ^ exponent`. Exponents for which no rounding is needed to see
that the result is infinite or zero are answered without forming the power. -/
def ofDecimal (negative : Bool) (digits : Nat) (exponent : Int) : Binary64 :=
  if digits = 0 then .finite negative .zero
  else if 310 < exponent then .infinite negative
  else if exponent < -400 - (digits.log2 : Int) then .finite negative .zero
  else ofRatio negative (digits * powerOfTen exponent.toNat) (powerOfTen (-exponent).toNat)

/-- The number with the given bits; every not-a-number pattern is read as the one `nan`. -/
def ofBits (bits : UInt64) : Binary64 :=
  let negative := bits >= 0x8000000000000000
  let fields : Nat := (bits &&& 0x7fffffffffffffff).toNat
  let biased : Nat := fields / 0x10000000000000
  let fraction : Nat := fields % 0x10000000000000
  if biased = 2047 then if fraction = 0 then .infinite negative else .nan
  else if biased = 0 then round negative fraction 1 0
  else round negative (0x10000000000000 + fraction) 1 ((biased : Int) - 1)

/-- The number truncated toward zero to an integer; infinities and not-a-number give `0`. -/
def truncate (x : Binary64) : Int := x.units.tdiv (1 <<< 1074 : Nat)

end Binary64

end RowReduction
