import RowReduction.Proofs.Elimination.Cramer
import RowReduction.Proofs.Exact.Determinant
import RowReduction.Proofs.Exact.GaussJordan

/-!
Cramer's rule over the rationals, against Gauss-Jordan reduction. An unknown whose determinant was
reduced to the end is the unknown that Gauss-Jordan reduction finds. An unknown whose determinant
met a column without a pivot above the tolerance comes out as zero, whatever it is.
-/
namespace RowReduction.Tableau

open Matrix

variable {n : Nat} {A : Tableau ℚ n n} {b : Vector ℚ n} {tolerance : ℚ} {recording : Bool}

theorem setColumn_toMatrix (A : Tableau ℚ n n) (i : Fin n) (b : Vector ℚ n) :
    (A.setColumn i b).toMatrix = A.toMatrix.updateCol i b.get := by
  ext r j
  rw [toMatrix_apply, setColumn_apply, Matrix.updateCol_apply]
  rfl

/-- The unknowns of an invertible system are quotients of determinants. -/
theorem eq_det_div_det {x : Fin n → ℚ} (hdet : A.toMatrix.det ≠ 0)
    (hsolution : ∀ y, A.toMatrix *ᵥ y = b.get → y = x) (i : Fin n) :
    x i = (A.setColumn i b).toMatrix.det / A.toMatrix.det := by
  have hquotient : A.toMatrix *ᵥ (A.toMatrix.det⁻¹ • A.toMatrix.cramer b.get) = b.get := by
    rw [Matrix.mulVec_smul, Matrix.mulVec_cramer, smul_smul, inv_mul_cancel₀ hdet, one_smul]
  rw [← hsolution _ hquotient, setColumn_toMatrix, Pi.smul_apply, Matrix.cramer_apply,
    smul_eq_mul, div_eq_inv_mul]

/-- A positive tolerance lets no zero divisor pass. -/
theorem isZero_of_lt_false (htol : 0 < tolerance) {d : ℚ}
    (h : Scalar.lt (Scalar.abs d) tolerance = false) : Scalar.isZero d = false := by
  rw [Bool.eq_false_iff, Ne, Exact.isZero_iff]
  exact Exact.ne_zero_of_lt_false htol h

/-- An answer of Cramer's rule has the determinant as its divisor, and that is not zero. -/
theorem cramer_divisor (htol : 0 < tolerance) {c : CramerSolution ℚ n}
    (h : A.cramer b tolerance recording = .ok c) :
    (A.triangulate tolerance (.start recording)).value = A.toMatrix.det ∧
      A.toMatrix.det ≠ 0 := by
  obtain ⟨hlt, _⟩ := cramer_of_ok (isZero_of_lt_false htol) h
  have hnone : (A.triangulate tolerance (.start recording)).singularColumn = none := by
    cases hcolumn : (A.triangulate tolerance (.start recording)).singularColumn with
    | none => rfl
    | some k =>
        -- a sweep that stalls has the value zero, which is below the tolerance
        exact absurd (triangulate_value_singular hcolumn) (Exact.ne_zero_of_lt_false htol hlt)
  obtain ⟨hvalue, hne⟩ := triangulate_value htol hnone
  exact ⟨hvalue, hvalue ▸ hne⟩

/-- An answer of Cramer's rule: the divisor is the determinant, which is not zero. -/
theorem cramer_solution (htol : 0 < tolerance) {c : CramerSolution ℚ n}
    (h : A.cramer b tolerance recording = .ok c) (i : Fin n) :
    A.toMatrix.det ≠ 0 ∧
      c.solution.get i =
        ((A.setColumn i b).triangulate tolerance .off).value / A.toMatrix.det := by
  obtain ⟨hvalue, hne⟩ := cramer_divisor htol h
  obtain ⟨_, rfl⟩ := cramer_of_ok (isZero_of_lt_false htol) h
  refine ⟨hne, ?_⟩
  rw [← triangulate_value_unlogged _ _ (.start recording), ← hvalue]
  simp [quotients, replaced]

/-- **Where the two methods agree**: they find the same unknown when the determinant with its
column replaced has a pivot for every column, and otherwise Cramer's rule answers zero. So they are
within the agreement tolerance of `1e-6`, absolute and relative, exactly in the first case and for
unknowns of magnitude `1e-6` at most. -/
theorem gaussJordan_agrees_cramer (htol : 0 < tolerance) {log : Log ℚ} {r : Reduction ℚ n}
    {c : CramerSolution ℚ n} (hr : A.gaussJordan b tolerance log = .ok r)
    (hc : A.cramer b tolerance recording = .ok c) (i : Fin n) :
    (((A.setColumn i b).triangulate tolerance .off).singularColumn = none →
      c.solution.get i = r.solution.get i) ∧
    (∀ k, ((A.setColumn i b).triangulate tolerance .off).singularColumn = some k →
      c.solution.get i = 0) ∧
    (|r.solution.get i - c.solution.get i| ≤ 1 / 10 ^ 6 + 1 / 10 ^ 6 * |c.solution.get i| ↔
      ((A.setColumn i b).triangulate tolerance .off).singularColumn = none ∨
        |r.solution.get i| ≤ 1 / 10 ^ 6) := by
  obtain ⟨hdet, hquotient⟩ := cramer_solution htol hc i
  obtain ⟨_, hequivalent⟩ := gaussJordan_rowEquivalent htol hr
  have hsolution := eq_det_div_det hdet (fun y hy => (hequivalent.solves.2.2 y).mp hy) i
  cases hcolumn : ((A.setColumn i b).triangulate tolerance .off).singularColumn with
  | none =>
      have hsame : c.solution.get i = r.solution.get i := by
        rw [hquotient, (triangulate_value htol hcolumn).1, hsolution]
      refine ⟨fun _ => hsame, ?_, ?_⟩
      · intro k hk
        exact absurd hk (Option.some_ne_none k).symm
      · rw [hsame, sub_self, abs_zero]
        exact iff_of_true (by positivity) (.inl rfl)
  | some k =>
      have hzero : c.solution.get i = 0 := by
        rw [hquotient, triangulate_value_singular hcolumn, zero_div]
      refine ⟨?_, fun _ _ => hzero, ?_⟩
      · intro h
        exact absurd h (Option.some_ne_none k)
      · rw [hzero, sub_zero, abs_zero, mul_zero, add_zero]
        exact ⟨.inr, fun h => h.resolve_left (Option.some_ne_none k)⟩

theorem gaussJordan_agrees_cramer_three :
    (0 : ℚ) < 1 / 10 ^ 12 ∧
      ∃ r c, threeEquations.gaussJordan #v[8, -11, -3] (1 / 10 ^ 12) .off = .ok r ∧
        threeEquations.cramer #v[8, -11, -3] (1 / 10 ^ 12) false = .ok c ∧
        c.solution.get 2 = r.solution.get 2 ∧
        |r.solution.get 2 - c.solution.get 2| ≤ 1 / 10 ^ 6 + 1 / 10 ^ 6 * |c.solution.get 2| := by
  have htol : (0 : ℚ) < 1 / 10 ^ 12 := by norm_num
  have hcolumn : ((threeEquations.setColumn 2 #v[8, -11, -3]).triangulate (1 / 10 ^ 12)
      .off).singularColumn = none := by decide +kernel
  have hreduction : (threeEquations.gaussJordan #v[8, -11, -3] (1 / 10 ^ 12) .off).toOption.map
      (·.solution.get 2) = some (-1) := by decide +kernel
  have hrule : (threeEquations.cramer #v[8, -11, -3] (1 / 10 ^ 12) false).toOption.map
      (·.solution.get 2) = some (-1) := by decide +kernel
  obtain ⟨r, hr, _⟩ := eq_ok_of_toOption_map_eq_some hreduction
  obtain ⟨c, hc, _⟩ := eq_ok_of_toOption_map_eq_some hrule
  obtain ⟨hsame, _, hagree⟩ := gaussJordan_agrees_cramer htol hr hc 2
  exact ⟨htol, r, c, hr, hc, hsame hcolumn, hagree.mpr (.inl hcolumn)⟩

/-- Two equations of different scale. -/
def unequalEquations : Tableau ℚ 2 2 := ⟨#v[#v[1 / 2 ^ 33, 0], #v[0, 1]]⟩

/-- **The methods can disagree**: with `2⁻⁴⁰` on the right of an equation with coefficient `2⁻³³`,
the unknown is `1 / 128`, and Cramer's rule takes the column of `2⁻⁴⁰` for zero. -/
theorem cramer_cuts_off_unknown :
    (0 : ℚ) < 1 / 10 ^ 12 ∧
      ∃ r c, unequalEquations.gaussJordan #v[1 / 2 ^ 40, 0] (1 / 10 ^ 12) .off = .ok r ∧
        unequalEquations.cramer #v[1 / 2 ^ 40, 0] (1 / 10 ^ 12) false = .ok c ∧
        r.solution.get 0 = 1 / 128 ∧ c.solution.get 0 = 0 ∧
        ¬ |r.solution.get 0 - c.solution.get 0| ≤
          1 / 10 ^ 6 + 1 / 10 ^ 6 * |c.solution.get 0| := by
  have hreduction : (unequalEquations.gaussJordan #v[1 / 2 ^ 40, 0] (1 / 10 ^ 12)
      .off).toOption.map (·.solution.get 0) = some (1 / 128) := by decide +kernel
  have hrule : (unequalEquations.cramer #v[1 / 2 ^ 40, 0] (1 / 10 ^ 12) false).toOption.map
      (·.solution.get 0) = some 0 := by decide +kernel
  obtain ⟨r, hr, hx⟩ := eq_ok_of_toOption_map_eq_some hreduction
  obtain ⟨c, hc, hy⟩ := eq_ok_of_toOption_map_eq_some hrule
  refine ⟨by norm_num, r, c, hr, hc, hx, hy, ?_⟩
  rw [hx, hy]
  norm_num

/-- **One unknown of Cramer's rule**, against the one solution `x` of the equations: it is right when
the reduction with its column replaced is complete, and zero when that reduction stalls. -/
theorem cramer_unknown (htol : 0 < tolerance) {c : CramerSolution ℚ n}
    (h : A.cramer b tolerance recording = .ok c) {x : Fin n → ℚ}
    (hsolution : ∀ y, A.toMatrix *ᵥ y = b.get → y = x) (i : Fin n) :
    (((A.setColumn i b).triangulate tolerance .off).singularColumn = none →
      c.solution.get i = x i) ∧
    (∀ k, ((A.setColumn i b).triangulate tolerance .off).singularColumn = some k →
      c.solution.get i = 0) := by
  obtain ⟨hdet, hquotient⟩ := cramer_solution htol h i
  constructor
  · intro hnone
    rw [hquotient, (triangulate_value htol hnone).1, eq_det_div_det hdet hsolution]
  · intro k hk
    rw [hquotient, triangulate_value_singular hk, zero_div]

/-- An invertible system has a solution, and no other. -/
theorem exists_solution (hdet : A.toMatrix.det ≠ 0) (b : Vector ℚ n) :
    ∃ x, ∀ y, A.toMatrix *ᵥ y = b.get ↔ y = x := by
  have hunit : IsUnit A.toMatrix.det := isUnit_iff_ne_zero.mpr hdet
  refine ⟨A.toMatrix⁻¹ *ᵥ b.get, fun y => ⟨?_, ?_⟩⟩
  · intro hy
    rw [← hy, Matrix.mulVec_mulVec, Matrix.nonsing_inv_mul _ hunit, Matrix.one_mulVec]
  · intro hy
    rw [hy, Matrix.mulVec_mulVec, Matrix.mul_nonsing_inv _ hunit, Matrix.one_mulVec]

/-- **Cramer's answer against the solution.** When Cramer's rule answers, the matrix is invertible,
and each unknown is that of the one solution if the reduction with its column replaced is complete,
and zero if that reduction stalls. So the answer solves the equations when the tolerance stalls no
such reduction whose determinant is not zero. -/
theorem cramer_answer (A : Tableau ℚ n n) (b : Vector ℚ n) (htol : 0 < tolerance)
    {c : CramerSolution ℚ n} (hc : A.cramer b tolerance recording = .ok c) :
    IsUnit A.toMatrix ∧
    (∃ x, (∀ y, A.toMatrix *ᵥ y = b.get ↔ y = x) ∧
      ∀ i, (((A.setColumn i b).triangulate tolerance .off).singularColumn = none →
          c.solution.get i = x i) ∧
        (∀ k, ((A.setColumn i b).triangulate tolerance .off).singularColumn = some k →
          c.solution.get i = 0)) ∧
    ((∀ i, (A.setColumn i b).toMatrix.det ≠ 0 →
        ((A.setColumn i b).triangulate tolerance .off).singularColumn = none) →
      A.toMatrix *ᵥ c.solution.get = b.get) := by
  obtain ⟨_, hdet⟩ := cramer_divisor htol hc
  obtain ⟨x, hx⟩ := exists_solution hdet b
  have hsolution (y : Fin n → ℚ) (hy : A.toMatrix *ᵥ y = b.get) : y = x := (hx y).mp hy
  refine ⟨(Matrix.isUnit_iff_isUnit_det _).mpr (isUnit_iff_ne_zero.mpr hdet),
    ⟨x, hx, fun i => cramer_unknown htol hc hsolution i⟩, ?_⟩
  intro hcomplete
  refine (hx _).mpr (funext fun i => ?_)
  obtain ⟨hright, hzero⟩ := cramer_unknown htol hc hsolution i
  cases hcolumn : ((A.setColumn i b).triangulate tolerance .off).singularColumn with
  | none => exact hright hcolumn
  | some k =>
      -- a reduction that stalls has determinant zero, and so has its unknown the value zero
      have hminor : (A.setColumn i b).toMatrix.det = 0 := by
        by_contra hne
        exact absurd (hcomplete i hne) (hcolumn ▸ Option.some_ne_none k)
      rw [hzero k hcolumn, eq_det_div_det hdet hsolution i, hminor, zero_div]

theorem cramer_answer_three :
    (0 : ℚ) < 1 / 10 ^ 12 ∧
      ∃ c, threeEquations.cramer #v[8, -11, -3] (1 / 10 ^ 12) true = .ok c ∧
        c.solution.toList = [2, 3, -1] ∧ IsUnit threeEquations.toMatrix ∧
        threeEquations.toMatrix *ᵥ c.solution.get = (#v[8, -11, -3] : Vector ℚ 3).get := by
  have htol : (0 : ℚ) < 1 / 10 ^ 12 := by norm_num
  have hrule : (threeEquations.cramer #v[8, -11, -3] (1 / 10 ^ 12) true).toOption.map
      (·.solution.toList) = some [2, 3, -1] := by decide +kernel
  have hcomplete (i : Fin 3) : ((threeEquations.setColumn i #v[8, -11, -3]).triangulate
      (1 / 10 ^ 12) .off).singularColumn = none := by
    revert i
    decide +kernel
  obtain ⟨c, hc, hanswer⟩ := eq_ok_of_toOption_map_eq_some hrule
  obtain ⟨hunit, _, hsolves⟩ := cramer_answer threeEquations #v[8, -11, -3] htol hc
  exact ⟨htol, c, hc, hanswer, hunit, hsolves fun i _ => hcomplete i⟩

end RowReduction.Tableau
