import RowReduction.Binary64.Conversion

/-!
The arithmetic that row reduction needs. The kernels are written once over this class; they run on
binary64 numbers, and the same definitions read over an exact field say what they compute without
rounding.
-/
namespace RowReduction

/-- Numbers with the four comparisons that elimination makes: strictly below, equal to zero, finite,
and the ranking by which a pivot is chosen. -/
class Scalar (α : Type) extends Zero α, One α, Neg α, Add α, Sub α, Mul α, Div α where
  abs : α → α
  /-- Strictly below, as the tolerance test compares. -/
  lt : α → α → Bool
  /-- Equal to zero, as a number. -/
  isZero : α → Bool
  isFinite : α → Bool
  /-- The first has the larger magnitude. A magnitude that is not a number outranks every one that
  is, and no other of its kind. -/
  outranks : α → α → Bool

namespace Binary64

/-- The larger magnitude, with not-a-number above all others. -/
def outranks (x y : Binary64) : Bool :=
  !y.isNaN && (x.isNaN || y.abs.lt x.abs)

instance : Scalar Binary64 where
  abs := abs
  lt := lt
  isZero := isZero
  isFinite := isFinite
  outranks := outranks

end Binary64

/-- The product of a list from left to right; the empty product is one. -/
def Scalar.product {α : Type} [Scalar α] : List α → α
  | [] => 1
  | x :: rest => rest.foldl (· * ·) x

end RowReduction
