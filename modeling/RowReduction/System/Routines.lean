import RowReduction.Tableau.Basic
import RowReduction.Binary64.Arithmetic

/-!
Computations with matrices that are left to a library. How such a library adds up products and finds
singular values, and how it rounds on the way, is its own affair, so whatever is said of systems and
their solutions is said for all routines.
-/
namespace RowReduction

/-- The routines of a library for matrices. -/
structure MatrixRoutines where
  /-- The largest singular value over the smallest. -/
  conditionNumber : {n : Nat} → Tableau Binary64 n n → Binary64
  /-- The product of a matrix and a vector. -/
  apply : {m n : Nat} → Tableau Binary64 m n → Vector Binary64 n → Vector Binary64 m
  /-- The product of two matrices. -/
  multiply : {k m n : Nat} → Tableau Binary64 k m → Tableau Binary64 m n → Tableau Binary64 k n

/-- The product of a matrix and a vector, less another vector. -/
def MatrixRoutines.residuals (routines : MatrixRoutines) {m n : Nat} (A : Tableau Binary64 m n)
    (x : Vector Binary64 n) (b : Vector Binary64 m) : Vector Binary64 m :=
  let product := routines.apply A x
  Vector.ofFn fun i => product.get i - b.get i

end RowReduction
