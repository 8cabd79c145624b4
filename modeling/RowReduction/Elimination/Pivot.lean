import RowReduction.Scalar
import RowReduction.Tableau.Basic

/-!
Choosing a pivot: among the rows from the diagonal down, the first one whose entry in the pivot
column has the largest magnitude.
-/
namespace RowReduction

/-- A place on the leading diagonal of a tableau. -/
structure Diagonal (m n : Nat) where
  index : Nat
  row_lt : index < m
  column_lt : index < n

namespace Diagonal

variable {m n : Nat}

def row (d : Diagonal m n) : Fin m := ⟨d.index, d.row_lt⟩

def column (d : Diagonal m n) : Fin n := ⟨d.index, d.column_lt⟩

end Diagonal

/-- The rows strictly below `i`, top to bottom. -/
def rowsBelow {m : Nat} (i : Fin m) : List (Fin m) := (List.finRange m).filter (i < ·)

/-- All rows but `i`, top to bottom. -/
def rowsBesides {m : Nat} (i : Fin m) : List (Fin m) := (List.finRange m).filter (· ≠ i)

@[simp] theorem mem_rowsBelow {m : Nat} {i r : Fin m} : r ∈ rowsBelow i ↔ i < r := by
  simp [rowsBelow]

@[simp] theorem mem_rowsBesides {m : Nat} {i r : Fin m} : r ∈ rowsBesides i ↔ r ≠ i := by
  simp [rowsBesides]

namespace Tableau

variable {α : Type} [Scalar α] {m n : Nat}

/-- The first row, from row `top` down, that no other row outranks in column `j`. -/
def pivotRow (M : Tableau α m n) (top : Fin m) (j : Fin n) : Fin m :=
  (rowsBelow top).foldl (fun best r => if Scalar.outranks (M r j) (M best j) then r else best) top

/-- The pivot row is never above the row where the search starts. -/
theorem le_pivotRow (M : Tableau α m n) (top : Fin m) (j : Fin n) : top ≤ M.pivotRow top j := by
  have fold (rows : List (Fin m)) (hrows : ∀ r ∈ rows, top ≤ r) (best : Fin m)
      (hbest : top ≤ best) :
      top ≤ rows.foldl (fun b r => if Scalar.outranks (M r j) (M b j) then r else b) best := by
    induction rows generalizing best with
    | nil => exact hbest
    | cons r rest ih =>
      rw [List.foldl_cons]
      refine ih (fun s hs => hrows s (List.mem_cons_of_mem _ hs)) _ ?_
      split
      · exact hrows r List.mem_cons_self
      · exact hbest
  exact fold _ (fun r hr => Fin.le_of_lt (mem_rowsBelow.mp hr)) top (Nat.le_refl _)

end Tableau

end RowReduction
