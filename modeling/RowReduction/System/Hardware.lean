import RowReduction.Binary64.Conversion
import RowReduction.System.Routines

/-!
Routines that can be run. The condition number of a matrix is found from its singular values, which
are the lengths of the columns once rotations of pairs of columns have made them orthogonal; the
rotations are computed in hardware floating point, on the matrix divided by a power of two near its
largest entry.
-/
namespace RowReduction

/-- A column of hardware numbers. -/
abbrev FloatColumn := Array Float

namespace FloatColumn

/-- The Euclidean length, formed relative to the largest entry so that nothing overflows. -/
def length (v : FloatColumn) : Float :=
  let largest := v.foldl (fun m x => if m < x.abs then x.abs else m) 0
  if largest == 0 then 0
  else largest * (v.foldl (fun sum x => sum + (x / largest) * (x / largest)) 0).sqrt

/-- The cosine of the angle between two columns of the given lengths. -/
def cosine (v w : FloatColumn) (lengthV lengthW : Float) : Float :=
  (v.zip w).foldl (fun sum (x, y) => sum + (x / lengthV) * (y / lengthW)) 0

/-- The tangent of the angle of the rotation that makes two columns orthogonal, from their cosine
and the ratio of the second length to the first. -/
def rotationTangent (cosine ratio : Float) : Float :=
  let zeta := (ratio - 1 / ratio) / (2 * cosine)
  if zeta.abs > 1e150 then 1 / (2 * zeta)
  else (if zeta < 0 then -1 else 1) / (zeta.abs + (1 + zeta * zeta).sqrt)

end FloatColumn

/-- Rotates columns `p` and `q` so that they become orthogonal, unless they already are as nearly as
rounding allows. The flag says whether any rotation was made. -/
def rotatePair (state : Array FloatColumn × Bool) (p q : Nat) : Array FloatColumn × Bool :=
  let v := state.1.getD p #[]
  let w := state.1.getD q #[]
  let lengthV := v.length
  let lengthW := w.length
  if lengthV == 0 || lengthW == 0 then state
  else
    let cosine := v.cosine w lengthV lengthW
    if cosine.abs ≤ 1e-15 then state
    else
      let t := FloatColumn.rotationTangent cosine (lengthW / lengthV)
      let c := 1 / (1 + t * t).sqrt
      let s := c * t
      let columns := state.1.setIfInBounds p ((v.zip w).map fun (x, y) => c * x - s * y)
      (columns.setIfInBounds q ((v.zip w).map fun (x, y) => s * x + c * y), true)

/-- Rotates every pair of columns once. -/
def rotateAll (columns : Array FloatColumn) : Array FloatColumn × Bool :=
  (List.range columns.size).foldl
    (fun state p =>
      (List.range columns.size).foldl
        (fun state q => if p < q then rotatePair state p q else state) state)
    (columns, false)

/-- Rotates until the columns are orthogonal, at most `rounds` times round. -/
def orthogonalize (columns : Array FloatColumn) : (rounds : Nat) → Array FloatColumn
  | 0 => columns
  | rounds + 1 =>
    let (columns, changed) := rotateAll columns
    if changed then orthogonalize columns rounds else columns

namespace Binary64

/-- The power of two just above a finite number's magnitude, counted from the unit; `0` for zero. -/
def scale : Binary64 → Nat
  | finite _ m => if m.isZero then 0 else m.exponent + m.significand.log2 + 1
  | _ => 0

/-- The hardware number equal to a finite number divided by `2 ^ (scale - 1074)`. -/
def toFloatScaled (scale : Nat) : Binary64 → Float
  | finite s m =>
    let x := (Float.ofNat m.significand).scaleB ((m.exponent : Int) - scale)
    if s then -x else x
  | _ => 0

/-- A hardware number. -/
def ofFloat (x : Float) : Binary64 := if x.isNaN then .nan else ofBits x.toBits

end Binary64

namespace Tableau

variable {n : Nat}

/-- The columns as hardware numbers, divided by a power of two near the largest entry. -/
def floatColumns (A : Tableau Binary64 n n) : Array FloatColumn :=
  let scale := A.entries.foldl (fun k x => max k x.scale) 0
  Array.ofFn fun j : Fin n => Array.ofFn fun i : Fin n => (A i j).toFloatScaled scale

/-- The largest singular value over the smallest; infinite when the smallest is zero. -/
def conditionNumber (A : Tableau Binary64 n n) : Binary64 :=
  let lengths := (orthogonalize A.floatColumns 60).map FloatColumn.length
  let largest := lengths.foldl (fun m x => if m < x then x else m) 0
  let smallest := lengths.foldl (fun m x => if x < m then x else m) largest
  if smallest == 0 then .infinite false else .ofFloat (largest / smallest)

end Tableau

namespace MatrixRoutines

/-- The sum of the products of entries, from left to right. -/
def dot {n : Nat} (x y : Vector Binary64 n) : Binary64 :=
  (x.toList.zipWith (· * ·) y.toList).foldl (· + ·) .zero

/-- The routines of this machine: products are summed from left to right, and singular values are
computed in hardware. -/
def hardware : MatrixRoutines where
  conditionNumber := Tableau.conditionNumber
  apply A x := Vector.ofFn fun i => dot (A.row i) x
  multiply A B := Tableau.ofFn fun i j => dot (A.row i) (B.column j)

end MatrixRoutines

end RowReduction
