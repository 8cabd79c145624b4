import RowReduction.Elimination.GaussJordan
import RowReduction.Elimination.Triangular
import RowReduction.Input.Broadcast
import RowReduction.System.Routines

/-!
Reductions and products of arrays that no check has looked at: any shape, any numbers, any
tolerance. Where the shape does not allow the computation, the fault says which access failed. A
tolerance can be a fault itself, which arises when a magnitude is first compared with it.
-/
namespace RowReduction.NumericArray

/-- An array of at least two dimensions as a tableau. What stands in one place, `size` numbers of
the further dimensions, is stacked in rows. -/
def stack (a : NumericArray) (m n size : Nat) : Tableau Binary64 (m * size) n :=
  let entries := a.entries.toArray
  Tableau.ofFn fun i j => entries.getD ((i / size * n + j) * size + i % size) .zero

/-- A pivot row found by counting from `column`: both the pivot column and the first candidate row,
and from the end of the array if it is negative. The rows of a stack are counted one by one. -/
def pivotRow (a : NumericArray) (column : Int) : Except Fault Int :=
  match a.shape with
  | m :: n :: rest => do
    let j ← position column 1 n
    let size := shapeSize rest
    let top : Nat := (if column < 0 then column + m else column).toNat
    if h : top * size < m * size then
      let p := (a.stack m n size).pivotRow ⟨top * size, h⟩ j
      return column + (p.val - top * size : Nat)
    else throw .noCandidates
  | shape => .error (.tooManyIndices shape.length 2)

/-- What a triangular reduction of an array found. -/
structure ArrayTriangulation where
  value : Binary64
  sign : Int
  swaps : Nat
  triangular : NumericArray
  pivots : List Binary64
  singularColumn : Option Nat
  trace : Option (List (RowStep Binary64))

/-- The findings of a reduction as arrays. -/
def ArrayTriangulation.ofTriangulation {m n : Nat} (t : Triangulation Binary64 m n) :
    ArrayTriangulation where
  value := t.value
  sign := t.sign
  swaps := t.swaps
  triangular := ⟨[m, n], t.triangular.toLists.flatten⟩
  pivots := t.pivots
  singularColumn := t.singularColumn
  trace := t.log.steps?

/-- Starts to reduce an array whose places hold `size` numbers each. It gets no further than to the
first pivot: if that is below the tolerance the reduction stalls, which is an answer when nothing is
recorded, and otherwise no number can be made of it. -/
def triangulateStack (a : NumericArray) (m n size : Nat) (tolerance : Except Fault Binary64)
    (recording : Bool) : Except Fault ArrayTriangulation := do
  if m = 0 then throw .noDiagonal
  let row ← position (← a.pivotRow 0) 0 m
  match (a.entries.drop (row * n * size)).take size with
  | [x] =>
    if x.abs.lt (← tolerance) && !recording then
      return ⟨.zero, 1, 0, a, [], some 0, none⟩
    else throw .manyNumbers
  | entries => throw (.ambiguousTruth entries.length)

/-- Reduces to triangular form. With more rows than columns a reduction that does not stall runs out
of columns. -/
def triangulate (a : NumericArray) (tolerance : Except Fault Binary64) (recording : Bool) :
    Except Fault ArrayTriangulation :=
  match a.shape with
  | [] => .error .noLength
  | [0] => .ok (.ofTriangulation ((a.tableau 0 0).triangulate .zero (.start recording)))
  | [_] => .error (.tooManyIndices 1 2)
  | [m, n] =>
    if m = 0 then .ok (.ofTriangulation ((a.tableau m n).triangulate .zero (.start recording)))
    else if n = 0 then .error (.indexOutOfBounds 0 1 0)
    else do
      let result := (a.tableau m n).triangulate (← tolerance) (.start recording)
      if n < m && result.singularColumn.isNone then throw (.indexOutOfBounds n 1 n)
      else return .ofTriangulation result
  | m :: n :: rest => a.triangulateStack m n (shapeSize rest) tolerance recording

/-- A Gauss-Jordan reduction, completed or broken down, with its dimension. -/
structure ArrayReduction where
  order : Nat
  result : Except (Breakdown Binary64) (Reduction Binary64 order)

/-- Solves by Gauss-Jordan reduction. The arrays are spread over a square and over a column. -/
def gaussJordan (a b : NumericArray) (tolerance : Except Fault Binary64) (recording : Bool) :
    Except Fault ArrayReduction := do
  match a.shape with
  | [] => throw .noLength
  | n :: _ =>
    let A ← a.broadcast [n, n]
    let b ← b.broadcast [n]
    let tolerance ← if n = 0 then pure .zero else tolerance
    return ⟨n, (A.tableau n n).gaussJordan (b.vector n) tolerance (.start recording)⟩

/-- The product of two arrays of at most two dimensions. A vector on the left is a row, and one on
the right is a column; their dimension is not one of the product. -/
def product (routines : MatrixRoutines) (a b : NumericArray) : Except Fault NumericArray :=
  match a.shape, b.shape with
  | [], _ => .error (.scalarFactor 0)
  | _, [] => .error (.scalarFactor 1)
  | leftShape, rightShape =>
    let inner := leftShape.getLastD 0
    let (length, columns) := match rightShape with
      | [length, columns] => (length, columns)
      | shape => (shape.headD 0, 1)
    if inner ≠ length then .error (.innerLengths inner length)
    else
      let rows := if leftShape.length = 1 then 1 else leftShape.headD 0
      let product := routines.multiply (a.tableau rows inner) (b.tableau inner columns)
      .ok ⟨leftShape.dropLast ++ rightShape.drop 1, product.entries⟩

/-- The products of two arrays, less another array. -/
def residuals (routines : MatrixRoutines) (a x b : NumericArray) : Except Fault NumericArray := do
  (← product routines a x).subtract b

end RowReduction.NumericArray
