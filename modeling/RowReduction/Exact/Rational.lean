import Mathlib
import RowReduction.Scalar

/-!
The exact rationals as scalars: nothing is rounded, everything is finite, and a pivot outranks
another exactly when its magnitude is larger. A kernel read over them is the kernel that runs, with
the rounding taken out.
-/
namespace RowReduction

instance : Scalar ℚ where
  abs q := |q|
  lt p q := decide (p < q)
  isZero q := decide (q = 0)
  isFinite _ := true
  outranks p q := decide (|q| < |p|)

namespace Exact

@[simp] theorem abs_eq (q : ℚ) : Scalar.abs q = |q| := rfl

@[simp] theorem lt_iff (p q : ℚ) : Scalar.lt p q = true ↔ p < q := by
  simp [Scalar.lt]

@[simp] theorem isZero_iff (q : ℚ) : Scalar.isZero q = true ↔ q = 0 := by
  simp [Scalar.isZero]

@[simp] theorem isFinite_eq (q : ℚ) : Scalar.isFinite q = true := rfl

@[simp] theorem outranks_iff (p q : ℚ) : Scalar.outranks p q = true ↔ |q| < |p| := by
  simp [Scalar.outranks]

/-- Over the rationals the product of a list is the product of its entries. -/
theorem product_eq_prod (xs : List ℚ) : Scalar.product xs = xs.prod := by
  cases xs with
  | nil => rfl
  | cons x rest =>
    rw [Scalar.product, List.prod_cons]
    induction rest generalizing x with
    | nil => simp
    | cons y rest ih => rw [List.foldl_cons, ih, List.prod_cons, mul_assoc]

end Exact

end RowReduction
