import RowReduction.Proofs.Exact.Sweep
import RowReduction.Proofs.Outcome

/-!
Gauss-Jordan reduction over the rationals. After `k` places the first `k` columns are unit columns
and the tableau is row equivalent to the augmented one, with the signed product of the pivots as
ratio. A complete sweep therefore ends with the identity beside the one solution, and cannot happen
when the matrix is singular.
-/
namespace RowReduction

open Tableau Matrix

variable {m n : Nat}

namespace Progress

/-- The first `k` columns are unit columns. -/
def UnitColumns {α : Type} [Zero α] [One α] (k : Nat) (s : Progress α m n) : Prop :=
  ∀ (r : Fin m) (j : Fin n), j.val < k → s.working r j = if r.val = j.val then 1 else 0

/-- **The invariant of a Gauss-Jordan sweep** that started from `S`, after `k` places. -/
structure ReducedFrom (S : Tableau ℚ m n) (k : Nat) (s : Progress ℚ m n) : Prop where
  unit : s.UnitColumns k
  equivalent : RowEquivalent S s.working ((-1) ^ s.swaps * s.pivots.prod)

theorem UnitColumns.zeroLeft {α : Type} [Zero α] [One α] {d : Diagonal m n} {s : Progress α m n}
    (h : s.UnitColumns d.index) : s.ZeroLeft d := by
  intro r hr j hj
  have hrow : d.index ≤ r.val := hr
  rw [h r j hj, if_neg (by omega)]

/-- Bringing up a pivot row keeps the unit columns: both rows that change places are zero there. -/
theorem UnitColumns.pivoted {α : Type} [Scalar α] {d : Diagonal m n} {s : Progress α m n}
    (h : s.UnitColumns d.index) : (s.pivoted d).UnitColumns d.index := by
  intro r j hj
  rcases lt_or_ge r d.row with hr | hr
  · rw [pivoted_working_above s d hr]
    exact h r j hj
  · have hrow : d.index ≤ r.val := hr
    rw [h.zeroLeft.pivoted r hr j hj, if_neg (by omega)]

/-- Clearing a column with a pivot that is not zero makes it a unit column. -/
theorem UnitColumns.clearColumn {d : Diagonal m n} {s : Progress ℚ m n}
    (h : s.UnitColumns d.index) (hpivot : s.working d.row d.column ≠ 0) :
    (s.clearColumn d).UnitColumns (d.index + 1) := by
  intro r j hj
  rw [clearColumn_working]
  rcases Nat.lt_succ_iff_lt_or_eq.mp hj with hlt | heq
  · -- the columns to the left are not touched
    rw [if_neg (by omega)]
    exact h r j hlt
  · have hcolumn : j = d.column := Fin.ext heq
    subst hcolumn
    rw [if_pos heq.ge]
    by_cases hr : r = d.row
    · subst hr
      have hdiagonal : d.row.val = d.column.val := rfl
      rw [if_pos rfl, if_pos hdiagonal, div_self hpivot]
    · have hne : ¬ r.val = d.column.val := fun e => hr (Fin.ext e)
      rw [if_neg hr, if_neg hne, div_self hpivot, mul_one, sub_self]

/-- Clearing a column multiplies the ratio by the pivot. -/
theorem rowEquivalent_clearColumn {S : Tableau ℚ m n} {d : Diagonal m n} {s : Progress ℚ m n}
    {x : ℚ} (h : RowEquivalent S s.working x) (hzero : s.ZeroLeft d)
    (hpivot : s.working d.row d.column ≠ 0) :
    RowEquivalent S (s.clearColumn d).working (x * s.working d.row d.column) := by
  have hrow := hzero d.row (le_refl _)
  apply rowEquivalent_foldl (fun t r => ⟨_, clearRow_working d t r⟩) (not_mem_rowsBesides d.row)
  · intro j hj
    rw [normalize_working, divideRow_apply, if_neg (by omega)]
    exact hrow j hj
  · exact h.divideRow hrow hpivot

theorem ReducedFrom.start (S : Tableau ℚ m n) (log : Log ℚ) :
    ReducedFrom S 0 (Progress.start S log) where
  unit := fun _ _ hj => absurd hj (Nat.not_lt_zero _)
  equivalent := by simpa [Progress.start] using RowEquivalent.refl S

/-- **One place preserves the invariant.** -/
theorem ReducedFrom.step {S : Tableau ℚ m n} {tolerance : ℚ} (htol : 0 < tolerance)
    (d : Diagonal m n) (s : Progress ℚ m n) (h : ReducedFrom S d.index s)
    (hlt : Scalar.lt (s.candidate d) tolerance = false) :
    ReducedFrom S (d.index + 1) ((s.pivoted d).clearColumn d) := by
  have hpivot := pivot_ne_zero htol hlt
  refine ⟨h.unit.pivoted.clearColumn hpivot, ?_⟩
  have hcleared := rowEquivalent_clearColumn (rowEquivalent_pivoted h.equivalent d)
    h.unit.zeroLeft.pivoted hpivot
  rwa [clearColumn_swaps, clearColumn_pivots, pivoted_pivots, List.prod_append,
    List.prod_singleton, ← mul_assoc]

end Progress

namespace Tableau

variable {A : Tableau ℚ n n} {b : Vector ℚ n} {tolerance : ℚ} {log : Log ℚ}

/-- With unit columns throughout, an augmented tableau is the identity beside its last column. -/
theorem eq_augment_of_unitColumns {s : Progress ℚ n (n + 1)} (h : s.UnitColumns n) :
    s.working = (identity n).augment (s.working.column (Fin.last n)) := by
  ext i j
  refine Fin.lastCases ?_ (fun j => ?_) j
  · rw [augment_last, get_eq_getElem, column_getElem]
  · rw [augment_castSucc, h i j.castSucc j.isLt, identity, ofFn_apply]
    simp [Fin.ext_iff]

/-- **A completed reduction** ends with `[I|x]`, row equivalent to `[A|b]`, and the ratio is the
signed product of the pivots. -/
theorem gaussJordan_rowEquivalent (htol : 0 < tolerance) {r : Reduction ℚ n}
    (h : A.gaussJordan b tolerance log = .ok r) :
    r.reduced = (identity n).augment r.solution ∧
      RowEquivalent (A.augment b) ((identity n).augment r.solution)
        ((-1) ^ r.swaps * r.pivots.prod) := by
  obtain ⟨s, hsweep, rfl⟩ := gaussJordan_of_ok h
  have hs := Sweep.run_complete (Progress.ReducedFrom.start _ _)
    (Progress.ReducedFrom.step htol) _ _ _ hsweep
  have hreduced := eq_augment_of_unitColumns hs.unit
  exact ⟨hreduced, hreduced ▸ hs.equivalent⟩

/-- **Gauss-Jordan reduction is correct over the rationals**: an answer is the one solution of an
invertible system, and a singular system has no answer. -/
theorem gaussJordan_solves (A : Tableau ℚ n n) (b : Vector ℚ n) {tolerance : ℚ}
    (htol : 0 < tolerance) (log : Log ℚ) :
    (∀ r, A.gaussJordan b tolerance log = .ok r →
      IsUnit A.toMatrix ∧ A.toMatrix *ᵥ r.solution.get = b.get ∧
        (∀ y, A.toMatrix *ᵥ y = b.get → y = r.solution.get) ∧
        r.reduced = (identity n).augment r.solution ∧
        A.toMatrix.det = (-1) ^ r.swaps * r.pivots.prod) ∧
    (¬ IsUnit A.toMatrix → ∃ f, A.gaussJordan b tolerance log = .error f) := by
  constructor
  · intro r hr
    obtain ⟨hreduced, hequivalent⟩ := gaussJordan_rowEquivalent htol hr
    obtain ⟨hunit, hdet, hsolution⟩ := hequivalent.solves
    exact ⟨hunit, (hsolution _).mpr rfl, fun y hy => (hsolution y).mp hy, hreduced, hdet⟩
  · intro hsingular
    cases hrun : A.gaussJordan b tolerance log with
    | error f => exact ⟨f, rfl⟩
    | ok r =>
        obtain ⟨_, hequivalent⟩ := gaussJordan_rowEquivalent htol hrun
        exact absurd hequivalent.solves.1 hsingular

/-- Three equations that need two exchanges. -/
def threeEquations : Tableau ℚ 3 3 := ⟨#v[#v[2, 1, -1], #v[-3, -1, 2], #v[-2, 1, 2]]⟩

theorem gaussJordan_solves_three :
    (0 : ℚ) < 1 / 10 ^ 12 ∧
      ∃ r, threeEquations.gaussJordan #v[8, -11, -3] (1 / 10 ^ 12) .off = .ok r ∧
        r.solution.toList = [2, 3, -1] ∧ r.swaps = 2 ∧
        threeEquations.toMatrix *ᵥ r.solution.get = (#v[8, -11, -3] : Vector ℚ 3).get ∧
        threeEquations.toMatrix.det = (-1) ^ r.swaps * r.pivots.prod := by
  have htol : (0 : ℚ) < 1 / 10 ^ 12 := by norm_num
  have hrun : (threeEquations.gaussJordan #v[8, -11, -3] (1 / 10 ^ 12) .off).toOption.map
      (fun r => (r.solution.toList, r.swaps)) = some ([2, 3, -1], 2) := by decide +kernel
  obtain ⟨r, hr, hview⟩ := eq_ok_of_toOption_map_eq_some hrun
  obtain ⟨hsolution, hswaps⟩ := Prod.mk.inj hview
  obtain ⟨_, hsolves, _, _, hdet⟩ := (gaussJordan_solves _ _ htol _).1 r hr
  exact ⟨htol, r, hr, hsolution, hswaps, hsolves, hdet⟩

end Tableau

end RowReduction
