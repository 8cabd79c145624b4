import RowReduction.Binary64.Basic

/-!
Rounding an exact value to the nearest binary64 number, ties to the even significand. Every
operation forms its exact result as a quotient of natural numbers times a power of two and rounds
it once, here.
-/
namespace RowReduction

/-- The integer nearest to `num / den`, an exact half going to the even neighbour. -/
def roundHalfEven (num den : Nat) : Nat :=
  let quotient := num / den
  let twice := 2 * (num % den)
  if twice < den then quotient
  else if den < twice then quotient + 1
  else quotient + quotient % 2

/-- Ten to the power `k`. -/
def powerOfTen (k : Nat) : Nat := Nat.pow 10 k

/-- The largest integer `k` with `2 ^ k ≤ num / den`, for positive `num` and `den`. -/
def binaryExponent (num den : Nat) : Int :=
  let estimate : Int := (num.log2 : Int) - (den.log2 : Int)
  if den <<< num.log2 ≤ num <<< den.log2 then estimate else estimate - 1

namespace Magnitude

/-- The exponent of the unit in the last place at `num / den * 2 ^ shift` units. -/
def unitExponent (num den : Nat) (shift : Int) : Nat :=
  (binaryExponent num den + shift - 52).toNat

/-- The magnitude nearest to `num / den * 2 ^ shift` units, or `none` when that is past the largest
finite magnitude. -/
def round? (num den : Nat) (shift : Int) : Option Magnitude :=
  if num = 0 then some zero
  else
    let exponent := unitExponent num den shift
    let significand :=
      roundHalfEven (num <<< (shift - exponent).toNat) (den <<< ((exponent : Int) - shift).toNat)
    pack? significand exponent

end Magnitude

/-- The binary64 number of the given sign nearest to `num / den * 2 ^ shift` units; a magnitude past
the finite range rounds to infinity. -/
def Binary64.round (negative : Bool) (num den : Nat) (shift : Int) : Binary64 :=
  match Magnitude.round? num den shift with
  | some m => .finite negative m
  | none => .infinite negative

end RowReduction
