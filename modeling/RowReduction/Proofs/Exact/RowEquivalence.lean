import Mathlib
import RowReduction.Tableau.Basic

/-!
Tableaus over a field as matrices. A row operation multiplies from the left by an invertible matrix,
provided the row it uses is zero in the columns that it leaves out. A tableau is row equivalent to
another with ratio `d` when such a matrix of determinant `1 / d` leads from one to the other.
-/
namespace RowReduction.Tableau

open Matrix

variable {α : Type} {F : Type} [Field F] {m n : Nat}

/-- The tableau as a matrix. -/
def toMatrix (M : Tableau α m n) : Matrix (Fin m) (Fin n) α := Matrix.of fun i j => M i j

@[simp] theorem toMatrix_apply (M : Tableau α m n) (i : Fin m) (j : Fin n) :
    M.toMatrix i j = M i j := rfl

/-- The tableau with ones on the diagonal and zeros elsewhere. -/
def identity (n : Nat) : Tableau F n n := ofFn fun i j => if i = j then 1 else 0

/-! ## Row operations as left factors -/

theorem det_swap {i p : Fin m} (h : i ≠ p) : (Matrix.swap F i p).det = -1 := by
  rw [Matrix.swap, Matrix.det_permutation, Equiv.Perm.sign_swap h]
  simp

theorem swapRows_toMatrix (M : Tableau F m n) (i p : Fin m) :
    (M.swapRows i p).toMatrix = Matrix.swap F i p * M.toMatrix := by
  ext r j
  rw [toMatrix_apply, swapRows_apply]
  by_cases hi : r = i
  · subst hi
    rw [if_pos rfl, Matrix.swap_mul_apply_left, toMatrix_apply]
  · by_cases hp : r = p
    · subst hp
      rw [if_neg hi, if_pos rfl, Matrix.swap_mul_apply_right, toMatrix_apply]
    · rw [if_neg hi, if_neg hp, Matrix.swap_mul_of_ne hi hp, toMatrix_apply]

/-- The left factor that divides row `i` by `pivot`. -/
def scaling (i : Fin m) (pivot : F) : Matrix (Fin m) (Fin m) F :=
  Matrix.diagonal fun r => if r = i then pivot⁻¹ else 1

theorem det_scaling (i : Fin m) (pivot : F) : (scaling i pivot).det = pivot⁻¹ := by
  rw [scaling, Matrix.det_diagonal, Finset.prod_ite_eq']
  simp

theorem divideRow_toMatrix {M : Tableau F m n} {i : Fin m} {start : Nat}
    (hzero : ∀ j : Fin n, j.val < start → M i j = 0) (pivot : F) :
    (M.divideRow i start pivot).toMatrix = scaling i pivot * M.toMatrix := by
  ext r j
  rw [toMatrix_apply, divideRow_apply, scaling, Matrix.diagonal_mul, toMatrix_apply]
  by_cases hr : r = i
  · subst hr
    rw [if_pos rfl]
    by_cases hj : start ≤ j.val
    · rw [if_pos ⟨rfl, hj⟩, div_eq_inv_mul]
    · rw [if_neg (fun h => hj h.2), hzero j (by omega), mul_zero]
  · rw [if_neg (fun h => hr h.1), if_neg hr, one_mul]

theorem subtractRow_toMatrix {M : Tableau F m n} {source target : Fin m} {start : Nat}
    (hzero : ∀ j : Fin n, j.val < start → M source j = 0) (factor : F) :
    (M.subtractRow source target start factor).toMatrix =
      Matrix.transvection target source (-factor) * M.toMatrix := by
  ext r j
  rw [toMatrix_apply, subtractRow_apply]
  by_cases hr : r = target
  · subst hr
    rw [Matrix.transvection_mul_apply_same, toMatrix_apply, toMatrix_apply]
    by_cases hj : start ≤ j.val
    · rw [if_pos ⟨rfl, hj⟩]
      ring
    · rw [if_neg (fun h => hj h.2), hzero j (by omega), mul_zero, add_zero]
  · rw [if_neg (fun h => hr h.1), Matrix.transvection_mul_apply_of_ne _ _ _ _ hr, toMatrix_apply]

/-! ## Row equivalence -/

/-- `M` comes from `S` by row operations that, taken together, divide a determinant by `d`. -/
def RowEquivalent (S M : Tableau F m n) (d : F) : Prop :=
  ∃ P : Matrix (Fin m) (Fin m) F, P.det * d = 1 ∧ M.toMatrix = P * S.toMatrix

namespace RowEquivalent

variable {S M N : Tableau F m n} {d : F}

theorem refl (S : Tableau F m n) : RowEquivalent S S 1 := ⟨1, by simp, by simp⟩

/-- A left factor `E` divides the ratio by its determinant. -/
theorem mul_left (h : RowEquivalent S M d) {E : Matrix (Fin m) (Fin m) F} {e : F}
    (hdet : E.det * e = 1) (hN : N.toMatrix = E * M.toMatrix) : RowEquivalent S N (d * e) := by
  obtain ⟨P, hP, hM⟩ := h
  refine ⟨E * P, ?_, ?_⟩
  · rw [Matrix.det_mul]
    calc E.det * P.det * (d * e) = (P.det * d) * (E.det * e) := by ring
      _ = 1 := by rw [hP, hdet, one_mul]
  · rw [hN, hM, Matrix.mul_assoc]

theorem swapRows (h : RowEquivalent S M d) {i p : Fin m} (hip : i ≠ p) :
    RowEquivalent S (M.swapRows i p) (d * -1) :=
  h.mul_left (by rw [det_swap hip]; ring) (M.swapRows_toMatrix i p)

theorem divideRow (h : RowEquivalent S M d) {i : Fin m} {start : Nat}
    (hzero : ∀ j : Fin n, j.val < start → M i j = 0) {pivot : F} (hpivot : pivot ≠ 0) :
    RowEquivalent S (M.divideRow i start pivot) (d * pivot) :=
  h.mul_left (by rw [det_scaling, inv_mul_cancel₀ hpivot]) (divideRow_toMatrix hzero pivot)

theorem subtractRow (h : RowEquivalent S M d) {source target : Fin m} {start : Nat}
    (hne : target ≠ source) (hzero : ∀ j : Fin n, j.val < start → M source j = 0) (factor : F) :
    RowEquivalent S (M.subtractRow source target start factor) d := by
  have hstep := h.mul_left (e := 1) (by rw [Matrix.det_transvection_of_ne _ _ hne, mul_one])
    (subtractRow_toMatrix hzero factor)
  rwa [mul_one] at hstep

/-- Between square tableaus the ratio is that of the determinants. -/
theorem det_eq {S M : Tableau F n n} (h : RowEquivalent S M d) :
    S.toMatrix.det = d * M.toMatrix.det := by
  obtain ⟨P, hP, hM⟩ := h
  rw [hM, Matrix.det_mul]
  calc S.toMatrix.det = (P.det * d) * S.toMatrix.det := by rw [hP, one_mul]
    _ = d * (P.det * S.toMatrix.det) := by ring

end RowEquivalent

/-! ## Augmented tableaus -/

theorem augment_castSucc (A : Tableau α m n) (b : Vector α m) (i : Fin m) (j : Fin n) :
    A.augment b i j.castSucc = A i j := by
  rw [augment_apply, dif_pos (by simp)]
  rfl

theorem augment_last (A : Tableau α m n) (b : Vector α m) (i : Fin m) :
    A.augment b i (Fin.last n) = b.get i := by
  rw [augment_apply, dif_neg (by simp)]
  rfl

/-- The left part and the last column of an augmented tableau go through a left factor apart. -/
theorem augment_toMatrix_eq_mul {A C : Tableau F m n} {b x : Vector F m}
    {P : Matrix (Fin m) (Fin m) F}
    (h : (C.augment x).toMatrix = P * (A.augment b).toMatrix) :
    C.toMatrix = P * A.toMatrix ∧ x.get = P *ᵥ b.get := by
  constructor
  · ext i j
    have hij := congrFun (congrFun h i) j.castSucc
    simpa only [Matrix.mul_apply, toMatrix_apply, augment_castSucc] using hij
  · ext i
    have hi := congrFun (congrFun h i) (Fin.last n)
    simpa only [Matrix.mul_apply, toMatrix_apply, augment_last, Matrix.mulVec, dotProduct] using hi

/-- **A solved system**: when `[A|b]` is row equivalent to `[I|x]`, the matrix is invertible with
the ratio as its determinant, and `x` is the one solution. -/
theorem RowEquivalent.solves {A : Tableau F n n} {b x : Vector F n} {d : F}
    (h : RowEquivalent (A.augment b) ((identity n).augment x) d) :
    IsUnit A.toMatrix ∧ A.toMatrix.det = d ∧
      ∀ y : Fin n → F, A.toMatrix *ᵥ y = b.get ↔ y = x.get := by
  obtain ⟨P, hP, hM⟩ := h
  obtain ⟨hleft, hlast⟩ := augment_toMatrix_eq_mul hM
  have hone : (identity n : Tableau F n n).toMatrix = 1 := by
    ext i j
    simp [identity, Matrix.one_apply]
  -- a left inverse of a square matrix is a right inverse too
  have hPA : P * A.toMatrix = 1 := by rw [← hleft, hone]
  have hAP : A.toMatrix * P = 1 := mul_eq_one_comm.mp hPA
  refine ⟨IsUnit.of_mul_eq_one P hAP, ?_, ?_⟩
  · have hdet : P.det * A.toMatrix.det = 1 := by rw [← Matrix.det_mul, hPA, Matrix.det_one]
    have hunit : P.det ≠ 0 := left_ne_zero_of_mul_eq_one hP
    exact mul_left_cancel₀ hunit (hdet.trans hP.symm)
  · intro y
    rw [hlast]
    constructor
    · intro hy
      rw [← hy, Matrix.mulVec_mulVec, hPA, Matrix.one_mulVec]
    · intro hy
      rw [hy, Matrix.mulVec_mulVec, hAP, Matrix.one_mulVec]

end RowReduction.Tableau
