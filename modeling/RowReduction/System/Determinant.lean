import RowReduction.Elimination.Triangular
import RowReduction.System.Basic
import RowReduction.System.Report

/-!
Determinants of checked matrices, and what an answer knows about how it was reached.
-/
namespace RowReduction

/-- The determinant of a checked matrix. -/
structure DeterminantSolution where
  matrix : SquareMatrix
  tolerance : Binary64
  value : Binary64
  sign : Int
  swaps : Nat
  pivots : List Binary64
  triangular : Tableau Binary64 matrix.order matrix.order
  singularColumn : Option Nat
  trace : Option (List (RowStep Binary64))

namespace DeterminantSolution

def isSingular (s : DeterminantSolution) : Bool := s.singularColumn.isSome

/-- What the determinant shows. -/
def report (s : DeterminantSolution) : DeterminantReport where
  order := s.matrix.order
  tolerance := s.tolerance
  value := s.value
  sign := s.sign
  swaps := s.swaps
  pivots := s.pivots
  triangular := s.triangular.toLists
  singularColumn := s.singularColumn
  trace := s.trace

end DeterminantSolution

namespace SquareMatrix

/-- The determinant of a matrix whose tolerance has been decided. -/
def determinant (m : SquareMatrix) (tolerance : Binary64) (recording : Bool) :
    DeterminantSolution :=
  let t := m.entries.triangulate tolerance (.start recording)
  { matrix := m
    tolerance := tolerance
    value := t.value
    sign := t.sign
    swaps := t.swaps
    pivots := t.pivots
    triangular := t.triangular
    singularColumn := t.singularColumn
    trace := t.log.steps? }

end SquareMatrix

/-- What a caller may pass as a matrix: a value, or a matrix already checked. -/
inductive MatrixSource where
  | value (a : Value)
  | matrix (m : SquareMatrix)

def MatrixSource.resolve : MatrixSource → Except Fault SquareMatrix
  | value a => SquareMatrix.ofValue a
  | matrix m => .ok m

/-- How a caller wants a determinant computed. -/
structure DeterminantOptions where
  trace : Value := .bool false
  tolerance : Value := .float Tolerance.pivot

/-- The determinant of a matrix. The tolerance is checked before the matrix. -/
def determinant (source : MatrixSource) (options : DeterminantOptions) :
    Except Fault DeterminantSolution := do
  let tolerance ← Tolerance.ofValue options.tolerance "tol"
  let matrix ← source.resolve
  return matrix.determinant tolerance (← options.trace.truth)

/-- The value of a determinant. -/
def determinantValue (source : MatrixSource) (tolerance : Value := .float Tolerance.pivot) :
    Except Fault Binary64 := do
  return (← determinant source ⟨.bool false, tolerance⟩).value

/-- The value of a determinant, with the log. -/
def determinantWithTrace (source : MatrixSource) (tolerance : Value := .float Tolerance.pivot) :
    Except Fault (Binary64 × Option (List (RowStep Binary64))) := do
  let d ← determinant source ⟨.bool true, tolerance⟩
  return (d.value, d.trace)

end RowReduction
