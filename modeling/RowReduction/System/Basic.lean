import RowReduction.Input.Check

/-!
Square matrices and linear systems that have passed every check. They are made from arrays, own
their entries, and can be solved without looking at their shape or their entries again.
-/
namespace RowReduction

/-- A square matrix of finite numbers with at least one row. -/
structure SquareMatrix where
  order : Nat
  entries : Tableau Binary64 order order
  order_pos : 0 < order
  finite : ∀ i j, (entries i j).isFinite = true

/-- A square matrix and a right-hand side of finite numbers. -/
structure LinearSystem where
  matrix : SquareMatrix
  constants : Vector Binary64 matrix.order
  finite : ∀ i : Fin matrix.order, (constants.get i).isFinite = true

namespace NumericArray

/-- The length of the first dimension. -/
def length (a : NumericArray) : Nat := a.shape.headD 1

theorem getD_isFinite {a : NumericArray} (h : a.AllFinite) (k : Nat) :
    (a.entries.toArray.getD k .zero).isFinite = true := by
  rw [Array.getD_eq_getD_getElem?, List.getElem?_toArray]
  cases hk : a.entries[k]? with
  | none => rfl
  | some x => exact h x (List.mem_of_getElem? hk)

theorem tableau_isFinite {a : NumericArray} (h : a.AllFinite) {m n : Nat} (i : Fin m)
    (j : Fin n) : (a.tableau m n i j).isFinite = true := by
  rw [tableau, Tableau.ofFn_apply]
  exact getD_isFinite h _

theorem vector_isFinite {a : NumericArray} (h : a.AllFinite) {n : Nat} (i : Fin n) :
    ((a.vector n).get i).isFinite = true := by
  simp only [vector, Tableau.get_eq_getElem, Fin.getElem_fin, Vector.getElem_ofFn]
  exact getD_isFinite h _

theorem length_pos {a : NumericArray} (h : a.size ≠ 0) : 0 < a.length := by
  unfold length
  cases hs : a.shape with
  | nil => exact Nat.one_pos
  | cons n rest =>
    apply Nat.pos_of_ne_zero
    intro hn
    exact h (by simp_all [size, shapeSize])

/-- The square matrix with the entries of an array. -/
def toSquareMatrix (a : NumericArray) (nonempty : a.size ≠ 0) (finite : a.AllFinite) :
    SquareMatrix where
  order := a.length
  entries := a.tableau a.length a.length
  order_pos := length_pos nonempty
  finite := tableau_isFinite finite

end NumericArray

namespace SquareMatrix

/-- The matrix in a two-dimensional, nonempty, square, finite array. -/
def ofArray (a : NumericArray) : Except Fault SquareMatrix := do
  let _ ← a.requireRank 2 "A"
  let ⟨nonempty⟩ ← a.requireNonempty "A"
  let _ ← a.requireSquare "A"
  let ⟨finite⟩ ← a.requireFinite "A"
  return a.toSquareMatrix nonempty finite

/-- The matrix a value stands for. -/
def ofValue (v : Value) : Except Fault SquareMatrix := do
  ofArray (← v.toArray "A")

end SquareMatrix

namespace LinearSystem

/-- The number of equations, and of unknowns. -/
def order (s : LinearSystem) : Nat := s.matrix.order

/-- The system in two arrays. The right-hand side may be a column. Shapes are checked before
entries, and the matrix before the right-hand side. -/
def ofArrays (a b : NumericArray) : Except Fault LinearSystem := do
  let b := b.flattenColumn
  let _ ← a.requireRank 2 "A"
  let ⟨nonempty⟩ ← a.requireNonempty "A"
  let _ ← a.requireSquare "A"
  let _ ← b.requireRank 1 "b"
  NumericArray.requireSameLength [a, b] ["A", "b"]
  let ⟨finiteA⟩ ← a.requireFinite "A"
  let ⟨finiteB⟩ ← b.requireFinite "b"
  return {
    matrix := a.toSquareMatrix nonempty finiteA
    constants := b.vector _
    finite := NumericArray.vector_isFinite finiteB }

/-- The system two values stand for. -/
def ofValues (a b : Value) : Except Fault LinearSystem := do
  let a ← a.toArray "A"
  let b ← b.toArray "b"
  ofArrays a b

end LinearSystem

end RowReduction
