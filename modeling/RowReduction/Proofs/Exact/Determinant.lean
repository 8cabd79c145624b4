import RowReduction.Proofs.Exact.Sweep

/-!
Triangular reduction over the rationals. After `k` places the first `k` columns are zero below the
diagonal, the diagonal up to there is not, and the ratio to the first tableau is the sign of the
exchanges. A complete sweep therefore has the determinant as its signed product, which is not zero,
and a singular tableau stalls.
-/
namespace RowReduction

open Tableau Matrix

variable {m n : Nat}

theorem Tableau.subtractRow_zero (M : Tableau ℚ m n) (source target : Fin m) (start : Nat) :
    M.subtractRow source target start 0 = M := by
  ext r j
  rw [subtractRow_apply]
  split
  · rw [zero_mul, sub_zero]
  · rfl

namespace Progress

/-- The first `k` columns are zero below the diagonal. -/
def ZeroBelow {α : Type} [Zero α] (k : Nat) (s : Progress α m n) : Prop :=
  ∀ (r : Fin m) (j : Fin n), j.val < k → j.val < r.val → s.working r j = 0

/-- **The invariant of a triangular sweep** that started from `S`, after `k` places. -/
structure TriangularFrom (S : Tableau ℚ m n) (k : Nat) (s : Progress ℚ m n) : Prop where
  below : s.ZeroBelow k
  diagonal : ∀ d : Diagonal m n, d.index < k → s.working d.row d.column ≠ 0
  equivalent : RowEquivalent S s.working ((-1) ^ s.swaps)

theorem ZeroBelow.zeroLeft {α : Type} [Zero α] {d : Diagonal m n} {s : Progress α m n}
    (h : s.ZeroBelow d.index) : s.ZeroLeft d := by
  intro r hr j hj
  have hrow : d.index ≤ r.val := hr
  exact h r j hj (by omega)

theorem ZeroBelow.pivoted {α : Type} [Scalar α] {d : Diagonal m n} {s : Progress α m n}
    (h : s.ZeroBelow d.index) : (s.pivoted d).ZeroBelow d.index := by
  intro r j hj hbelow
  rcases lt_or_ge r d.row with hr | hr
  · rw [pivoted_working_above s d hr]
    exact h r j hj hbelow
  · exact h.zeroLeft.pivoted r hr j hj

/-- Clearing below a pivot that is not zero leaves zeros there. -/
theorem ZeroBelow.clearBelow {d : Diagonal m n} {s : Progress ℚ m n} (h : s.ZeroBelow d.index)
    (hpivot : s.working d.row d.column ≠ 0) : (s.clearBelow d).ZeroBelow (d.index + 1) := by
  intro r j hj hbelow
  rw [clearBelow_working]
  rcases Nat.lt_succ_iff_lt_or_eq.mp hj with hlt | heq
  · rw [if_neg (by omega)]
    exact h r j hlt hbelow
  · have hcolumn : j = d.column := Fin.ext heq
    subst hcolumn
    have hrow : d.row < r := hbelow
    by_cases hfactor : s.working r d.column / s.working d.row d.column = 0
    · -- the row is skipped because its entry is zero already
      rw [if_neg (by simp [hfactor])]
      exact (div_eq_zero_iff.mp hfactor).resolve_right hpivot
    · have hnonzero : Scalar.isZero (s.working r d.column / s.working d.row d.column) = false := by
        rw [Bool.eq_false_iff, Ne, Exact.isZero_iff]
        exact hfactor
      rw [if_pos ⟨hrow, hnonzero, heq.ge⟩, div_mul_cancel₀ _ hpivot, sub_self]

/-- Clearing below keeps the ratio. -/
theorem rowEquivalent_clearBelow {S : Tableau ℚ m n} {d : Diagonal m n} {s : Progress ℚ m n}
    {x : ℚ} (h : RowEquivalent S s.working x) (hzero : s.ZeroLeft d) :
    RowEquivalent S (s.clearBelow d).working x := by
  apply rowEquivalent_foldl _ (not_mem_rowsBelow d.row) s (hzero d.row (le_refl _)) h
  intro t r
  rw [clearBelowRow_working]
  by_cases hfactor : Scalar.isZero (t.working r d.column / s.working d.row d.column) = true
  · -- a skipped row counts as one from which nothing is subtracted
    exact ⟨0, by rw [if_pos hfactor, subtractRow_zero]⟩
  · exact ⟨_, by rw [if_neg hfactor]⟩

theorem TriangularFrom.start (S : Tableau ℚ m n) (log : Log ℚ) :
    TriangularFrom S 0 (Progress.start S log) where
  below := fun _ _ hj _ => absurd hj (Nat.not_lt_zero _)
  diagonal := fun _ hd => absurd hd (Nat.not_lt_zero _)
  equivalent := by simpa [Progress.start] using RowEquivalent.refl S

/-- **One place preserves the invariant.** -/
theorem TriangularFrom.step {S : Tableau ℚ m n} {tolerance : ℚ} (htol : 0 < tolerance)
    (d : Diagonal m n) (s : Progress ℚ m n) (h : TriangularFrom S d.index s)
    (hlt : Scalar.lt (s.candidate d) tolerance = false) :
    TriangularFrom S (d.index + 1) ((s.pivoted d).clearBelow d) := by
  have hpivot := pivot_ne_zero htol hlt
  refine ⟨h.below.pivoted.clearBelow hpivot, ?_, ?_⟩
  · intro e he
    rw [clearBelow_working_above (show e.row ≤ d.row from Nat.le_of_lt_succ he)]
    rcases Nat.lt_succ_iff_lt_or_eq.mp he with hlt | heq
    · rw [pivoted_working_above s d hlt]
      exact h.diagonal e hlt
    · have hplace : e = d := by
        cases e
        cases d
        cases heq
        rfl
      rw [hplace]
      exact hpivot
  · have hequivalent : RowEquivalent S s.working ((-1) ^ s.swaps * 1) := by
      rw [mul_one]
      exact h.equivalent
    have hpivoted := rowEquivalent_pivoted hequivalent d
    rw [mul_one] at hpivoted
    rw [clearBelow_swaps]
    exact rowEquivalent_clearBelow hpivoted h.below.zeroLeft.pivoted

/-- Over the rationals the signed product is the product of the diagonal times the sign of the
exchanges. -/
theorem signedProduct_eq (s : Progress ℚ n n) :
    s.signedProduct = (-1) ^ s.swaps * ∏ i, s.working i i := by
  have hproduct : Scalar.product s.working.diagonal = ∏ i, s.working i i := by
    rw [Exact.product_eq_prod, Tableau.diagonal, List.prod_ofFn]
    exact Fin.prod_congr' (fun i => s.working i i) (Nat.min_self n)
  rw [signedProduct, hproduct, neg_one_pow_eq_ite]
  by_cases heven : s.swaps % 2 = 0
  · rw [if_pos heven, if_pos (Nat.even_iff.mpr heven), one_mul]
  · rw [if_neg heven, if_neg (fun h => heven (Nat.even_iff.mp h)), neg_one_mul]

/-- At the end of a complete sweep the signed product is the determinant, and is not zero. -/
theorem TriangularFrom.signedProduct_eq_det {S : Tableau ℚ n n} {s : Progress ℚ n n}
    (h : TriangularFrom S n s) : s.signedProduct = S.toMatrix.det ∧ s.signedProduct ≠ 0 := by
  have hupper : s.working.toMatrix.IsUpperTriangular := fun i j hij => h.below i j j.isLt hij
  have hvalue : s.signedProduct = S.toMatrix.det := by
    rw [signedProduct_eq, h.equivalent.det_eq, Matrix.det_of_isUpperTriangular hupper]
    rfl
  refine ⟨hvalue, ?_⟩
  rw [signedProduct_eq]
  exact mul_ne_zero (pow_ne_zero _ (by norm_num))
    (Finset.prod_ne_zero_iff.mpr fun i _ => h.diagonal ⟨i, i.isLt, i.isLt⟩ i.isLt)

end Progress

namespace Tableau

variable {tolerance : ℚ}

/-- A triangular sweep over a square tableau, when it is complete. -/
theorem triangularSweep_complete (htol : 0 < tolerance) {A : Tableau ℚ n n} {log : Log ℚ}
    {s : Progress ℚ n n} (h : A.triangularSweep tolerance log = .complete s) :
    Progress.TriangularFrom A n s := by
  have hs := Sweep.run_complete (Progress.TriangularFrom.start A log)
    (Progress.TriangularFrom.step htol) _ _ _ h
  rwa [Nat.min_self] at hs

/-- **Without a singular column the value is the determinant**, and is not zero. -/
theorem triangulate_value (htol : 0 < tolerance) {A : Tableau ℚ n n} {log : Log ℚ}
    (h : (A.triangulate tolerance log).singularColumn = none) :
    (A.triangulate tolerance log).value = A.toMatrix.det ∧
      (A.triangulate tolerance log).value ≠ 0 := by
  obtain ⟨s, hsweep, hs⟩ := triangulate_of_none h
  rw [hs]
  exact (triangularSweep_complete htol hsweep).signedProduct_eq_det

/-- A stalled sweep leaves no candidate of the tolerance or more in the column where it stalled. -/
theorem triangulate_candidates {A : Tableau ℚ m n} {log : Log ℚ} {c : Nat}
    (h : (A.triangulate tolerance log).singularColumn = some c) :
    ∃ d : Diagonal m n, d.index = c ∧ ∀ r, d.row ≤ r →
      |(A.triangulate tolerance log).triangular r d.column| < tolerance := by
  obtain ⟨v, s, hsweep, hs⟩ := triangulate_of_some h
  obtain ⟨d, hd, _, hlt, _⟩ := Sweep.run_stalled _ _ _ hsweep
  refine ⟨d, hd.symm, ?_⟩
  intro r hr
  rw [hs]
  exact (s.abs_le_candidate d hr).trans_lt ((Exact.lt_iff _ _).mp hlt)

/-- **Triangular reduction is correct over the rationals**: it returns the determinant of a tableau
whose columns all have a pivot that reaches the tolerance, and zero with the first column that has
none; a singular tableau has such a column. -/
theorem triangulate_determinant (A : Tableau ℚ n n) (htol : 0 < tolerance) (log : Log ℚ) :
    ((A.triangulate tolerance log).singularColumn = none →
      (A.triangulate tolerance log).value = A.toMatrix.det ∧
        (A.triangulate tolerance log).value ≠ 0 ∧
        ∀ i j, j < i → (A.triangulate tolerance log).triangular i j = 0) ∧
    (∀ c, (A.triangulate tolerance log).singularColumn = some c →
      (A.triangulate tolerance log).value = 0 ∧
        ∃ hc : c < n, ∀ r : Fin n, c ≤ r →
          |(A.triangulate tolerance log).triangular r ⟨c, hc⟩| < tolerance) ∧
    (A.toMatrix.det = 0 → ∃ c, (A.triangulate tolerance log).singularColumn = some c) := by
  refine ⟨?_, ?_, ?_⟩
  · intro h
    obtain ⟨hvalue, hnonzero⟩ := triangulate_value htol h
    refine ⟨hvalue, hnonzero, ?_⟩
    intro i j hij
    obtain ⟨s, hsweep, hs⟩ := triangulate_of_none h
    rw [hs]
    exact (triangularSweep_complete htol hsweep).below i j j.isLt hij
  · intro c h
    obtain ⟨d, rfl, hcandidates⟩ := triangulate_candidates h
    exact ⟨triangulate_value_singular h, d.column_lt, hcandidates⟩
  · intro hdet
    cases h : (A.triangulate tolerance log).singularColumn with
    | some c => exact ⟨c, rfl⟩
    | none =>
        -- a complete sweep would give the determinant a value that is not zero
        obtain ⟨hvalue, hnonzero⟩ := triangulate_value htol h
        exact absurd (hvalue.trans hdet) hnonzero

/-- Rows whose reduction needs exchanges and a skipped row. -/
def regularRows : Tableau ℚ 3 3 := ⟨#v[#v[0, 2, 1], #v[1, 1, 0], #v[3, 0, 1]]⟩

/-- Rows whose second column is twice the first. -/
def dependentColumns : Tableau ℚ 3 3 := ⟨#v[#v[1, 2, 1], #v[2, 4, 1], #v[-3, -6, 2]]⟩

theorem triangulate_determinant_three :
    (0 : ℚ) < 1 / 10 ^ 12 ∧
      (regularRows.triangulate (1 / 10 ^ 12) .off).value = -5 ∧
      regularRows.toMatrix.det = -5 ∧
      (dependentColumns.triangulate (1 / 10 ^ 12) .off).singularColumn = some 1 ∧
      (dependentColumns.triangulate (1 / 10 ^ 12) .off).value = 0 := by
  have htol : (0 : ℚ) < 1 / 10 ^ 12 := by norm_num
  have hnone : (regularRows.triangulate (1 / 10 ^ 12) .off).singularColumn = none := by
    decide +kernel
  have hvalue : (regularRows.triangulate (1 / 10 ^ 12) .off).value = -5 := by decide +kernel
  have hsome : (dependentColumns.triangulate (1 / 10 ^ 12) .off).singularColumn = some 1 := by
    decide +kernel
  have hregular := (triangulate_determinant regularRows htol .off).1 hnone
  have hsingular := (triangulate_determinant dependentColumns htol .off).2.1 1 hsome
  exact ⟨htol, hvalue, hregular.1.symm.trans hvalue, hsome, hsingular.1⟩

end Tableau

end RowReduction
