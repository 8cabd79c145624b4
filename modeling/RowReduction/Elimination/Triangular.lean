import RowReduction.Elimination.Sweep

/-!
Determinants by reduction to triangular form. A column without a pivot above the tolerance makes the
determinant zero; that is an answer and not a failure. Rows whose factor is zero are left alone and
leave no step in the log.
-/
namespace RowReduction

/-- What a triangular reduction found. -/
structure Triangulation (α : Type) (m n : Nat) where
  value : α
  sign : Int
  swaps : Nat
  triangular : Tableau α m n
  pivots : List α
  singularColumn : Option Nat
  log : Log α

namespace Progress

variable {α : Type} [Scalar α] {m n : Nat}

/-- Clears one entry below the pivot, unless the factor is already zero. -/
def clearBelowRow (d : Diagonal m n) (pivot : α) (s : Progress α m n) (r : Fin m) :
    Progress α m n :=
  let factor := s.working r d.column / pivot
  if Scalar.isZero factor then s else s.eliminate d factor r

/-- Clears the pivot column below the diagonal. -/
def clearBelow (d : Diagonal m n) (s : Progress α m n) : Progress α m n :=
  (rowsBelow d.row).foldl (clearBelowRow d (s.working d.row d.column)) s

/-- The signed product of the diagonal. -/
def signedProduct (s : Progress α m n) : α :=
  let product := Scalar.product s.working.diagonal
  if s.swaps % 2 = 0 then product else -product

/-- The answer of a completed reduction. -/
def triangulation (s : Progress α m n) : Triangulation α m n where
  value := s.signedProduct
  sign := s.sign
  swaps := s.swaps
  triangular := s.working
  pivots := s.pivots
  singularColumn := none
  log := (s.log.record fun _ => .triangular s.working.toLists s.sign).record
    fun _ => .determinantValue s.signedProduct none []

/-- The answer of a reduction that stalled. -/
def singularTriangulation (tolerance : α) (column : Nat) (candidate : α) (s : Progress α m n) :
    Triangulation α m n where
  value := 0
  sign := s.sign
  swaps := s.swaps
  triangular := s.working
  pivots := s.pivots
  singularColumn := some column
  log := s.log.record fun _ => .singularPivot column candidate tolerance s.working.toLists

end Progress

namespace Tableau

variable {α : Type} [Scalar α] {m n : Nat}

/-- The sweep that clears below the diagonal, as far as the tableau has rows and columns. -/
def triangularSweep (M : Tableau α m n) (tolerance : α) (log : Log α) : Sweep α m n :=
  Sweep.run Progress.clearBelow tolerance (.start M log) (min m n) (Nat.min_le_left m n)
    (Nat.min_le_right m n)

/-- Reduces a tableau to triangular form and multiplies the diagonal. -/
def triangulate (M : Tableau α m n) (tolerance : α) (log : Log α) : Triangulation α m n :=
  match M.triangularSweep tolerance log with
  | .complete s => s.triangulation
  | .stalled column candidate s => s.singularTriangulation tolerance column candidate

end Tableau

end RowReduction
