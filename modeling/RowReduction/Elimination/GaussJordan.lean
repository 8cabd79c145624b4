import RowReduction.Elimination.Sweep

/-!
Gauss-Jordan reduction of an augmented tableau: each pivot row is divided by its pivot and its
column is cleared above and below, so the last column of the reduced tableau is the solution. A
column without a pivot above the tolerance ends the reduction without an answer.
-/
namespace RowReduction

/-- What a completed Gauss-Jordan reduction found. -/
structure Reduction (α : Type) (n : Nat) where
  solution : Vector α n
  reduced : Tableau α n (n + 1)
  swaps : Nat
  pivots : List α
  log : Log α

/-- A Gauss-Jordan reduction that stalled: no candidate in `column` reaches the tolerance, the
largest has magnitude `candidate`. -/
structure Breakdown (α : Type) where
  column : Nat
  candidate : α
  tolerance : α
  log : Log α

namespace Progress

variable {α : Type} [Scalar α] {m n : Nat}

/-- Divides the pivot row by its pivot, from the pivot column on. -/
def normalize (d : Diagonal m n) (s : Progress α m n) : Progress α m n :=
  let pivot := s.working d.row d.column
  s.become (s.working.divideRow d.row d.index pivot) (.normalize d.index pivot)

/-- Clears one other entry of the pivot column. -/
def clearRow (d : Diagonal m n) (s : Progress α m n) (r : Fin m) : Progress α m n :=
  s.eliminate d (s.working r d.column) r

/-- Divides the pivot row by its pivot and clears the pivot column in all other rows. -/
def clearColumn (d : Diagonal m n) (s : Progress α m n) : Progress α m n :=
  (rowsBesides d.row).foldl (clearRow d) (s.normalize d)

/-- The answer of a completed reduction. -/
def reduction {n : Nat} (s : Progress α n (n + 1)) : Reduction α n :=
  let solution := s.working.column (Fin.last n)
  { solution
    reduced := s.working
    swaps := s.swaps
    pivots := s.pivots
    log := s.log.record fun _ => .final solution.toList (some s.working.toLists) }

end Progress

namespace Tableau

variable {α : Type} [Scalar α] {n : Nat}

/-- The sweep that clears every column of an augmented tableau but the last. -/
def gaussJordanSweep (A : Tableau α n n) (b : Vector α n) (tolerance : α) (log : Log α) :
    Sweep α n (n + 1) :=
  let augmented := A.augment b
  Sweep.run Progress.clearColumn tolerance
    (.start augmented (log.record fun _ => .initial augmented.toLists)) n (Nat.le_refl n)
    (Nat.le_succ n)

/-- Solves `A x = b` by reducing the augmented tableau. -/
def gaussJordan (A : Tableau α n n) (b : Vector α n) (tolerance : α) (log : Log α) :
    Except (Breakdown α) (Reduction α n) :=
  match A.gaussJordanSweep b tolerance log with
  | .complete s => .ok s.reduction
  | .stalled column candidate s => .error ⟨column, candidate, tolerance, s.log⟩

end Tableau

end RowReduction
