import RowReduction.Proofs.Input.Nesting
import RowReduction.Proofs.System.CheckedArrays

/-!
Which arrays make a system. Two arrays do when the first is square and has a row, the second has an
entry for every row, in one dimension or as a column, and all entries are finite. Of other arrays
the shapes are refused first, then the entries of the matrix, then those of the right-hand side.
-/
namespace RowReduction

namespace NumericArray

variable {a b : NumericArray} {n : Nat}

/-! ## Shapes -/

/-- The shape of a matrix of order `n`. -/
structure IsMatrix (n : Nat) (a : NumericArray) : Prop where
  pos : 0 < n
  shape_eq : a.shape = [n, n]

namespace IsMatrix

variable (h : a.IsMatrix n)
include h

theorem size_eq : a.size = n * n := by rw [size, h.shape_eq, shapeSize_pair]

end IsMatrix

/-- The rows of a tableau are the blocks of the list that it was made from. -/
theorem tableau_entries (h : a.IsMatrix n) (hfull : a.entries.length = a.size) :
    (a.tableau n n).entries = a.entries := by
  have hlength : a.entries.length = n * n := hfull.trans h.size_eq
  have hentry (i j : Fin n) : a.tableau n n i j = a.entries.toArray.getD (i * n + j) .zero := by
    rw [tableau, Tableau.ofFn_apply]
  have hrows : (a.tableau n n).toLists =
      (List.range n).map fun i => (a.entries.drop (i * n)).take n := by
    rw [Tableau.toLists_eq_ofFn]
    refine List.ext_getElem (by simp) fun i hi _ => ?_
    rw [List.length_ofFn] at hi
    have hend : i * n + n ≤ n * n := by
      rw [← Nat.succ_mul]
      exact Nat.mul_le_mul_right n hi
    rw [List.getElem_ofFn, List.getElem_map, List.getElem_range]
    refine List.ext_getElem ?_ fun j hj _ => ?_
    · rw [List.length_ofFn, List.length_take, List.length_drop, hlength]
      omega
    · rw [List.length_ofFn] at hj
      have hplace : i * n + j < a.entries.length := by omega
      rw [List.getElem_ofFn, List.getElem_take, List.getElem_drop, hentry,
        Array.getD_eq_getD_getElem?, List.getElem?_toArray, List.getElem?_eq_getElem hplace]
      rfl
  rw [Tableau.entries, hrows, flatten_blocks, ← hlength, List.take_length]

end NumericArray

open NumericArray

variable {a b : NumericArray} {n : Nat}

/-! ## The matrix -/

namespace SquareMatrix

end SquareMatrix

/-! ## The system -/

namespace LinearSystem

end LinearSystem

end RowReduction
