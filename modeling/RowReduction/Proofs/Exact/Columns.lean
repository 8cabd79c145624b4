import Mathlib
import RowReduction.Proofs.Elimination.RightHandSide
import RowReduction.Proofs.Exact.Lockstep

/-!
What a column without a pivot says about the matrix, over the rationals. Row operations keep all
linear relations between columns, and a sweep that has cleared some columns has made them unit
columns. So the columns before the one where a reduction stalls are independent; and when nothing
at all was left in that column, it is the first column that is a combination of those before it.
-/
namespace RowReduction

open Tableau Matrix

variable {F : Type} [Field F] {m n : Nat}

namespace Tableau

/-- The column depends on the columns before it. -/
def DependsOnEarlier (M : Tableau F m n) (j : Fin n) : Prop :=
  M.toMatrix.col j ∈ Submodule.span F (M.toMatrix.col '' Set.Iio j)

/-! ## Relations between columns -/

namespace RowEquivalent

variable {S M : Tableau F m n} {d : F} {columns : Set (Fin n)}

theorem symm (h : RowEquivalent S M d) : RowEquivalent M S d⁻¹ := by
  obtain ⟨P, hP, hM⟩ := h
  have hunit : IsUnit P.det := isUnit_iff_ne_zero.mpr (left_ne_zero_of_mul_eq_one hP)
  refine ⟨P⁻¹, ?_, ?_⟩
  · rw [Matrix.det_nonsing_inv, Ring.inverse_eq_inv', ← mul_inv, hP, inv_one]
  · rw [hM, ← Matrix.mul_assoc, Matrix.nonsing_inv_mul P hunit, Matrix.one_mul]

/-- One linear map takes every column to the column in its place. -/
theorem exists_col_eq (h : RowEquivalent S M d) :
    ∃ f : (Fin m → F) →ₗ[F] Fin m → F, M.toMatrix.col = f ∘ S.toMatrix.col := by
  obtain ⟨P, _, hM⟩ := h
  refine ⟨P.mulVecLin, funext fun j => funext fun i => ?_⟩
  rw [hM]
  rfl

/-- **Independent columns** stay independent. -/
theorem linearIndepOn (h : RowEquivalent S M d) (hM : LinearIndepOn F M.toMatrix.col columns) :
    LinearIndepOn F S.toMatrix.col columns := by
  obtain ⟨f, hf⟩ := h.exists_col_eq
  exact LinearIndepOn.of_comp f (hf ▸ hM)

/-- **A combination of columns** stays the combination of these columns. -/
theorem mem_span (h : RowEquivalent S M d) {j : Fin n}
    (hM : M.toMatrix.col j ∈ Submodule.span F (M.toMatrix.col '' columns)) :
    S.toMatrix.col j ∈ Submodule.span F (S.toMatrix.col '' columns) := by
  obtain ⟨f, hf⟩ := h.symm.exists_col_eq
  rw [hf, Function.comp_apply, Set.image_comp, ← Submodule.map_span]
  exact Submodule.mem_map_of_mem hM

end RowEquivalent

/-- No column before the end of an independent row of columns depends on those before it. -/
theorem not_dependsOnEarlier {M : Tableau F m n} {j k : Fin n}
    (h : LinearIndepOn F M.toMatrix.col (Set.Iio k)) (hj : j < k) : ¬ M.DependsOnEarlier j := by
  have hsubset : insert j (Set.Iio j) ⊆ Set.Iio k :=
    Set.insert_subset hj fun i hi => lt_trans hi hj
  exact ((linearIndepOn_insert Set.self_notMem_Iio).mp (h.mono hsubset)).2

/-- **A right diagnosis** of the column `c` with the largest candidate `v`: the columns before it
are independent, and if nothing was left in it, it is the first one that depends on those before it.
-/
structure RightDiagnosis (A : Tableau ℚ m n) (c : Nat) (v : ℚ) : Prop where
  column_lt : c < n
  independent : LinearIndepOn ℚ A.toMatrix.col (Set.Iio ⟨c, column_lt⟩)
  first : v = 0 → IsLeast {j | A.DependsOnEarlier j} ⟨c, column_lt⟩

end Tableau

/-! ## Cleared columns -/

/-- A column before the place has a row with its number. -/
theorem Diagonal.lt_of_lt_column {d : Diagonal m n} {j : Fin n} (hj : j < d.column) : j.val < m :=
  lt_trans hj d.row_lt

namespace Progress

variable {s : Progress ℚ m n} {d : Diagonal m n}

/-- A cleared column is a unit vector. -/
theorem UnitColumns.col_eq (h : s.UnitColumns d.index) {j : Fin n} (hj : j < d.column) :
    s.working.toMatrix.col j = Pi.single ⟨j, Diagonal.lt_of_lt_column hj⟩ 1 := by
  funext r
  rw [Matrix.col_apply, toMatrix_apply, h r j hj, Pi.single_apply]
  simp only [Fin.ext_iff]

/-- The cleared columns are independent. -/
theorem UnitColumns.linearIndepOn (h : s.UnitColumns d.index) :
    LinearIndepOn ℚ s.working.toMatrix.col (Set.Iio d.column) := by
  have hcolumns : (fun j : Set.Iio d.column => s.working.toMatrix.col j) =
      fun j => Pi.single ⟨j.val, Diagonal.lt_of_lt_column j.property⟩ 1 :=
    funext fun j => h.col_eq j.property
  rw [LinearIndepOn, hcolumns]
  -- different columns have their one in different rows
  exact (Pi.linearIndependent_single_one (Fin m) ℚ).comp
    (fun j : Set.Iio d.column => ⟨j.val, Diagonal.lt_of_lt_column j.property⟩)
    fun i j hij => Subtype.ext (Fin.ext (Fin.mk.inj hij))

/-- A column with nothing left from the place down is a combination of the cleared columns: its
entries above are the coefficients. -/
theorem UnitColumns.mem_span (h : s.UnitColumns d.index)
    (hzero : ∀ r, d.row ≤ r → s.working r d.column = 0) :
    s.working.toMatrix.col d.column ∈
      Submodule.span ℚ (s.working.toMatrix.col '' Set.Iio d.column) := by
  rw [pi_eq_sum_univ' (s.working.toMatrix.col d.column)]
  refine Submodule.sum_mem _ fun i _ => ?_
  rcases lt_or_ge i d.row with hi | hi
  · have hcolumn : (⟨i, lt_trans hi d.column_lt⟩ : Fin n) < d.column := hi
    refine Submodule.smul_mem _ _ (Submodule.subset_span ⟨_, hcolumn, ?_⟩)
    exact h.col_eq hcolumn
  · have hentry : s.working.toMatrix.col d.column i = 0 := hzero i hi
    rw [hentry, zero_smul]
    exact Submodule.zero_mem _

end Progress

variable {tolerance : ℚ}

/-- **A sweep that stalls** has cleared the columns before, so it diagnoses its tableau rightly. -/
theorem Sweep.rightDiagnosis_of_stalled (htol : 0 < tolerance) {S : Tableau ℚ m n} {log : Log ℚ}
    {k : Nat} {hm : k ≤ m} {hn : k ≤ n} {c : Nat} {v : ℚ} {t : Progress ℚ m n}
    (h : run Progress.clearColumn tolerance (.start S log) k hm hn = stalled c v t) :
    S.RightDiagnosis c v := by
  obtain ⟨d, rfl, rfl, _, hbefore⟩ := run_stalled k hm hn h
  have hreduced := run_complete (Progress.ReducedFrom.start S log)
    (Progress.ReducedFrom.step htol) _ _ _ hbefore
  have hindependent := hreduced.equivalent.linearIndepOn hreduced.unit.linearIndepOn
  refine ⟨d.column_lt, hindependent, fun hcandidate => ⟨?_, fun j hj => ?_⟩⟩
  · refine hreduced.equivalent.mem_span (hreduced.unit.mem_span fun r hr => ?_)
    have hbelow := t.abs_le_candidate d hr
    rw [hcandidate] at hbelow
    exact abs_nonpos_iff.mp hbelow
  · exact not_lt.mp fun hlt => not_dependsOnEarlier hindependent hlt hj

namespace Tableau

variable {A : Tableau ℚ n n} {b : Vector ℚ n} {log : Log ℚ}

/-- A reduction that breaks down is a sweep over the matrix that stalls, whatever stands beside it.
-/
theorem rightDiagnosis_of_breakdown (htol : 0 < tolerance) {f : Breakdown ℚ}
    (h : A.gaussJordan b tolerance log = .error f) : A.RightDiagnosis f.column f.candidate := by
  have hsweep := gaussJordan_error_iff.mp ⟨f, h, rfl, rfl⟩
  obtain ⟨t, ht⟩ := ((A.gaussJordanSweep_matrixPart b tolerance log).stalled_iff _ _).mp hsweep
  exact Sweep.rightDiagnosis_of_stalled htol ht

/-- **The column that a reduction reports is the right diagnosis**, over the rationals. When a
Gauss-Jordan reduction breaks down, or a triangular reduction reports a singular column, the columns
of the matrix before it are linearly independent. If the largest candidate there is zero, the column
is a linear combination of those before it, and the first one that is. -/
theorem singular_column_diagnosis (A : Tableau ℚ n n) (b : Vector ℚ n) (htol : 0 < tolerance)
    (log : Log ℚ) :
    (∀ f, A.gaussJordan b tolerance log = .error f → A.RightDiagnosis f.column f.candidate) ∧
    ∀ c, (A.triangulate tolerance log).singularColumn = some c →
      ∃ v, (A.triangulate tolerance log).ReportsSingular tolerance c v ∧ A.RightDiagnosis c v := by
  refine ⟨fun f hf => rightDiagnosis_of_breakdown htol hf, fun c hc => ?_⟩
  obtain ⟨v, t, hsweep, _⟩ := triangulate_of_some hc
  have hreports := reportsSingular_iff.mpr ⟨t, hsweep⟩
  -- a Gauss-Jordan reduction of the same matrix breaks down there too
  obtain ⟨f, hf, rfl, rfl⟩ := (breakdown_iff_reportsSingular (b := b)).mpr hreports
  exact ⟨f.candidate, hreports, rightDiagnosis_of_breakdown htol hf⟩

theorem singular_column_diagnosis_three :
    (0 : ℚ) < 1 / 10 ^ 12 ∧
      (∃ v, (dependentColumns.triangulate (1 / 10 ^ 12) .off).ReportsSingular (1 / 10 ^ 12) 1 v ∧
        dependentColumns.RightDiagnosis 1 v) ∧
      ∃ f, dependentColumns.gaussJordan #v[1, 2, 3] (1 / 10 ^ 12) .off = .error f ∧
        f.column = 1 ∧ f.candidate = 0 ∧
        LinearIndepOn ℚ dependentColumns.toMatrix.col (Set.Iio 1) ∧
        IsLeast {j | dependentColumns.DependsOnEarlier j} 1 := by
  have htol : (0 : ℚ) < 1 / 10 ^ 12 := by norm_num
  have hsome : (dependentColumns.triangulate (1 / 10 ^ 12) .off).singularColumn = some 1 := by
    decide +kernel
  have hbreakdown : (match dependentColumns.gaussJordan #v[1, 2, 3] (1 / 10 ^ 12) .off with
      | .ok _ => none
      | .error f => some (f.column, f.candidate)) = some (1, 0) := by decide +kernel
  obtain ⟨hgauss, htriangular⟩ :=
    singular_column_diagnosis dependentColumns #v[1, 2, 3] htol .off
  refine ⟨htol, htriangular 1 hsome, ?_⟩
  cases hf : dependentColumns.gaussJordan #v[1, 2, 3] (1 / 10 ^ 12) .off with
  | ok r =>
      rw [hf] at hbreakdown
      exact nomatch hbreakdown
  | error f =>
      rw [hf] at hbreakdown
      obtain ⟨hcolumn, hcandidate⟩ := Prod.mk.inj (Option.some.inj hbreakdown)
      obtain ⟨hbound, hindependent, hfirst⟩ := hgauss f hf
      have hone : (⟨f.column, hbound⟩ : Fin 3) = 1 := Fin.ext hcolumn
      rw [hone] at hindependent hfirst
      exact ⟨f, rfl, hcolumn, hcandidate, hindependent, hfirst hcandidate⟩

end Tableau

end RowReduction
