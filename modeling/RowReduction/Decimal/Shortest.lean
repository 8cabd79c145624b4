import RowReduction.Binary64.Format
import RowReduction.Decimal.Basic

/-!
The shortest decimal that reads back as a given magnitude of a binary format, and among those the
nearest to it. The decimals with `p` digits form a grid; if any of them reads back, one of the two
next to the magnitude does, so it is enough to try these two for each `p` in turn.
-/
namespace RowReduction

namespace Neighborhood

/-- The decimals that read back as a magnitude, in quarters of its unit in the last place times
`2 ^ exponent / (4 * 2 ^ 1074)`. Both ends belong to the interval exactly when the significand is
even, because a tie is read as the even neighbour. -/
structure ReadingInterval where
  lower : Nat
  upper : Nat
  closed : Bool

/-- Half a unit to each side, but only a quarter where the numbers beneath are twice as dense. -/
def readingInterval (x : Neighborhood) : ReadingInterval where
  lower := 4 * x.significand - (if x.denseBelow then 1 else 2)
  upper := 4 * x.significand + 2
  closed := x.significand % 2 = 0

/-- Whether `value / den` lies in the interval scaled by `scale / den`. -/
def ReadingInterval.contains (i : ReadingInterval) (scale value : Nat) : Bool :=
  let lower := i.lower * scale
  let upper := i.upper * scale
  if i.closed then lower ≤ value && value ≤ upper else lower < value && value < upper

/-- The magnitude as a quotient of natural numbers. -/
def ratio (x : Neighborhood) : Nat × Nat :=
  (x.significand <<< (x.exponent - 1074), 1 <<< (1074 - x.exponent))

/-- The coefficient of a decimal on the grid of `10 ^ power` that reads back as the magnitude: of
two the nearer, and of two equally near the even one. -/
def coefficientOnGrid? (x : Neighborhood) (power : Int) : Option Nat :=
  let interval := x.readingInterval
  let scale := powerOfTen (-power).toNat <<< (x.exponent - 1074)
  let unit := 4 * powerOfTen power.toNat <<< (1074 - x.exponent)
  let value := 4 * x.significand * scale
  let below := value / unit
  let belowReads := 0 < below && interval.contains scale (below * unit)
  let aboveReads := interval.contains scale ((below + 1) * unit)
  match belowReads, aboveReads with
  | true, true => some (roundHalfEven value unit)
  | true, false => some below
  | false, true => some (below + 1)
  | false, false => none

/-- The first grid from `power` down, over `fuel` grids, that has a decimal reading back as `x`. -/
def shortestFrom (x : Neighborhood) (power : Int) : (fuel : Nat) → Option Decimal
  | 0 => none
  | fuel + 1 =>
    match x.coefficientOnGrid? power with
    | some coefficient => some (Decimal.ofCoefficient coefficient power).trim
    | none => x.shortestFrom (power - 1) fuel

/-- The shortest decimal that reads back as a nonzero magnitude. Seventeen digits always do. -/
def shortest (x : Neighborhood) : Decimal :=
  let (num, den) := x.ratio
  (x.shortestFrom (Decimal.leadingPower num den) 17).getD (Decimal.significant num den 17)

end Neighborhood

/-- The shortest decimal that reads back as a nonzero binary64 magnitude. -/
def Magnitude.shortest (m : Magnitude) : Decimal := m.neighborhood.shortest

end RowReduction
