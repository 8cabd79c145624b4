import RowReduction.Proofs.Binary64.MultiplyBack
import RowReduction.Proofs.Elimination.Growth
import RowReduction.Proofs.Elimination.RowOrder
import RowReduction.Proofs.Elimination.StructuralZeros
import RowReduction.Tolerance

/-!
How triangular the end of a triangular reduction is, with rounding. Clearing a column subtracts
rounded multiples and writes no zeros, so below the pivot there are remainders, which later places
move with their rows and leave as they are. A column ends with zeros below its pivot exactly when
all its factors multiply back to the entries, and with rounding errors of the pivot otherwise.
-/
namespace RowReduction

variable {α : Type} {m n : Nat}

/-! ## Columns that have been passed -/

namespace Progress

/-- A later state has in the column of a place what an earlier one had from its diagonal down: the
same pivot, and the same entries below it in some order. -/
structure KeepsColumn (d : Diagonal m n) (s t : Progress α m n) : Prop where
  pivot : t.working d.row d.column = s.working d.row d.column
  below : ∃ σ : Equiv.Perm (Fin m), (∀ r, d.row < σ r ↔ d.row < r) ∧
    ∀ r, d.row < r → t.working r d.column = s.working (σ r) d.column

namespace KeepsColumn

variable {d e : Diagonal m n} {s t : Progress α m n}

theorem refl (d : Diagonal m n) (s : Progress α m n) : KeepsColumn d s s where
  pivot := rfl
  below := ⟨1, fun _ => Iff.rfl, fun _ _ => rfl⟩

/-- What holds of all entries below the pivot holds of them in both states. -/
theorem forall_below_iff (h : KeepsColumn d s t) (P : α → Prop) :
    (∀ r, d.row < r → P (t.working r d.column)) ↔ ∀ r, d.row < r → P (s.working r d.column) := by
  obtain ⟨σ, hσ, hsame⟩ := h.below
  constructor
  · intro ht r hr
    have hplace : d.row < σ.symm r := by rwa [← hσ, Equiv.apply_symm_apply]
    have hmoved := hsame _ hplace
    rw [Equiv.apply_symm_apply] at hmoved
    exact hmoved ▸ ht _ hplace
  · intro hs r hr
    rw [hsame r hr]
    exact hs _ ((hσ r).mpr hr)

/-- **A later place** exchanges rows below the pivot and works in later columns. -/
theorem place [Scalar α] (h : KeepsColumn d s t) (he : d.index < e.index) :
    KeepsColumn d s ((t.pivoted e).clearBelow e) := by
  obtain ⟨σ, hσ, hsame⟩ := h.below
  have hrow : d.row < e.row := he
  have hchoice : d.row < t.choice e := hrow.trans_le (t.le_choice e)
  have hbelow (r : Fin m) : d.row < Equiv.swap e.row (t.choice e) r ↔ d.row < r := by
    rw [Equiv.swap_apply_def]
    split_ifs with h₁ h₂
    · exact iff_of_true hchoice (h₁ ▸ hrow)
    · exact iff_of_true hrow (h₂ ▸ hchoice)
    · exact Iff.rfl
  have hcolumn (r : Fin m) : ((t.pivoted e).clearBelow e).working r d.column =
      t.working (Equiv.swap e.row (t.choice e) r) d.column := by
    rw [clearBelow_working, if_neg (fun hcond => absurd hcond.2.2 (Nat.not_le.mpr he)),
      pivoted_working, Tableau.swapRows_eq_permuteRows, Tableau.permuteRows_apply]
  constructor
  · rw [hcolumn, Equiv.swap_apply_of_ne_of_ne hrow.ne hchoice.ne]
    exact h.pivot
  · refine ⟨σ * Equiv.swap e.row (t.choice e), fun r => ?_, fun r hr => ?_⟩
    · rw [Equiv.Perm.mul_apply, hσ, hbelow]
    · rw [hcolumn, hsame _ ((hbelow r).mpr hr), Equiv.Perm.mul_apply]

end KeepsColumn

end Progress

/-- **A sweep keeps the columns that it has passed.** -/
theorem Sweep.run_keepsColumn [Scalar α] {tolerance : α} {s t u : Progress α m n}
    {d : Diagonal m n} (hu : Passes Progress.clearBelow tolerance s d u) {k : Nat} {hm : k ≤ m}
    {hn : k ≤ n} (hk : d.index < k)
    (h : run Progress.clearBelow tolerance s k hm hn = complete t) :
    Progress.KeepsColumn d ((u.pivoted d).clearBelow d) t := by
  refine run_invariant
    (I := fun k t => d.index < k → Progress.KeepsColumn d ((u.pivoted d).clearBelow d) t)
    (fun hlt => absurd hlt (Nat.not_lt_zero _)) ?_ k hm hn h hk
  intro e v hv hI hlt
  rcases Nat.lt_succ_iff_lt_or_eq.mp hlt with hlt | heq
  · exact (hI hlt).place hlt
  · -- this is the place itself, and the sweep comes to it in one state only
    cases d
    cases e
    cases heq
    cases hu.reached.symm.trans hv.reached
    exact .refl _ _

/-! ## What is left below a pivot -/

namespace Progress

/-- The factors of a place multiply back: each of them times the pivot is the entry that it is the
factor of. -/
def FactorsMultiplyBack (u : Progress Binary64 m n) (d : Diagonal m n) : Prop :=
  ∀ r, d.row < r →
    ((u.pivoted d).working r d.column / (u.pivoted d).working d.row d.column *
      (u.pivoted d).working d.row d.column).eq ((u.pivoted d).working r d.column) = true

instance (u : Progress Binary64 m n) (d : Diagonal m n) : Decidable (u.FactorsMultiplyBack d) :=
  inferInstanceAs (Decidable (∀ r, d.row < r →
    ((u.pivoted d).working r d.column / (u.pivoted d).working d.row d.column *
      (u.pivoted d).working d.row d.column).eq ((u.pivoted d).working r d.column) = true))

/-- Clearing leaves the remainders of the entries below the pivot. -/
theorem clearBelow_working_column (s : Progress Binary64 m n) (d : Diagonal m n) {r : Fin m}
    (hr : d.row < r) : (s.clearBelow d).working r d.column =
      Binary64.remainder (s.working r d.column) (s.working d.row d.column) := by
  rw [clearBelow_working, Binary64.remainder]
  cases hfactor : (s.working r d.column / s.working d.row d.column).isZero with
  | false => exact if_pos ⟨hr, hfactor, le_refl _⟩
  | true => exact if_neg (fun hcond => Bool.false_ne_true (hcond.2.1.symm.trans hfactor))

end Progress

section Passed

variable {A : Tableau Binary64 n n} {tolerance : Binary64} {d : Diagonal n n}
  {u : Progress Binary64 n n} (hfinite : A.StaysFinite Progress.clearBelow tolerance)
  (htol : Binary64.zero.lt tolerance = true)
  (hu : Sweep.Passes Progress.clearBelow tolerance (.start A .off) d u)
include hfinite htol hu

/-- The pivot of a place that is passed can be divided by, and no entry below it is larger. -/
theorem Sweep.Passes.divisible :
    ((u.pivoted d).working d.row d.column).isFinite = true ∧
      ((u.pivoted d).working d.row d.column).isZero = false ∧
      ∀ r, d.row < r → ((u.pivoted d).working r d.column).AtMost
        ((u.pivoted d).working d.row d.column).units.natAbs := by
  obtain ⟨exchange, hup, _⟩ := u.pivoted_bringsUp d
  have hpivot : ((u.pivoted d).working d.row d.column).isFinite = true := by
    rw [u.pivoted_working_row]
    exact hfinite.before hu _ _
  refine ⟨hpivot, ?_, fun r hr => ?_⟩
  · rw [u.pivoted_working_row]
    exact hu.pivot_isZero htol
  · exact Binary64.atMost_of_not_outranked (hup.not_outranked hr.le) hpivot

/-- **A cleared column** has zeros below its pivot exactly when the factors multiply back. -/
theorem Sweep.Passes.cleared_isZero_iff :
    (∀ r, d.row < r → (((u.pivoted d).clearBelow d).working r d.column).isZero = true) ↔
      u.FactorsMultiplyBack d := by
  obtain ⟨hpivot, hzero, hle⟩ := hu.divisible hfinite htol
  refine forall₂_congr fun r hr => ?_
  rw [Progress.clearBelow_working_column _ _ hr]
  exact Binary64.isZero_remainder_iff (hle r hr) hpivot hzero

/-- What is left in a cleared column is rounding error of the pivot. -/
theorem Sweep.Passes.cleared_atMost {r : Fin n} (hr : d.row < r) :
    (((u.pivoted d).clearBelow d).working r d.column).AtMost
      ((((u.pivoted d).clearBelow d).working d.row d.column).units.natAbs / 2 ^ 52) := by
  obtain ⟨hpivot, hzero, hle⟩ := hu.divisible hfinite htol
  rw [Progress.clearBelow_working_column _ _ hr, Progress.clearBelow_working_above (le_refl _)]
  exact Binary64.remainder_atMost (hle r hr) hpivot hzero

end Passed

/-! ## The reduction -/

namespace Tableau

/-- Without a singular column the triangular tableau is the state of the sweep over all places,
recorded or not. -/
theorem triangulate_complete [Scalar α] {A : Tableau α n n} {tolerance : α} {log : Log α}
    (h : (A.triangulate tolerance log).singularColumn = none) :
    ∃ s : Progress α n n, (A.triangulate tolerance log).triangular = s.working ∧
      Sweep.run Progress.clearBelow tolerance (.start A .off) n (le_refl n) (le_refl n) =
        .complete s := by
  obtain ⟨s, hsweep, hs⟩ := triangulate_of_none h
  have hunlogged := A.triangularSweep_unlogged tolerance log
  rw [hsweep, triangularSweep_square] at hunlogged
  rw [hs]
  exact ⟨s.unlogged, rfl, hunlogged⟩

/-- **A triangular reduction ends triangular up to rounding.** Where nothing overflows and no column
is singular, every entry below the diagonal is at most one `2 ^ 52`-th of the pivot of its column.
The entries below a pivot are all zero exactly when the factors of its place multiply back to the
entries that the sweep finds there. What is recorded at the end is the same tableau. -/
theorem triangular_up_to_rounding (A : Tableau Binary64 n n) {tolerance : Binary64}
    (htol : Binary64.zero.lt tolerance = true)
    (hfinite : A.StaysFinite Progress.clearBelow tolerance) {log : Log Binary64}
    (hcolumn : (A.triangulate tolerance log).singularColumn = none) :
    let T := A.triangulate tolerance log
    (∀ r j, j < r → (T.triangular r j).AtMost ((T.triangular j j).units.natAbs / 2 ^ 52)) ∧
    (∀ d : Diagonal n n, ∃ u, Sweep.Passes Progress.clearBelow tolerance (.start A .off) d u ∧
      T.triangular d.row d.column = (u.pivoted d).working d.row d.column ∧
      ((∀ r, d.row < r → (T.triangular r d.column).isZero = true) ↔ u.FactorsMultiplyBack d)) ∧
    ∃ steps, steps.map Step.kind ⊆ ["swap", "eliminate"] ∧
      log.Extended (steps ++ [.triangular T.triangular.toLists T.sign,
        .determinantValue T.value none []]) T.log := by
  intro T
  obtain ⟨s, htriangular, hsweep⟩ := triangulate_complete hcolumn
  have hT : T.triangular = s.working := htriangular
  have hplace (d : Diagonal n n) := Sweep.exists_passes hsweep d d.row_lt
  refine ⟨fun r j hj => ?_, fun d => ?_, ?_⟩
  · obtain ⟨u, hu⟩ := hplace ⟨j, j.isLt, j.isLt⟩
    have hkept := Sweep.run_keepsColumn hu j.isLt hsweep
    have hpivot : s.working j j = _ := hkept.pivot
    have hbelow := (hkept.forall_below_iff (Binary64.AtMost _)).mpr
      (fun r hr => hu.cleared_atMost hfinite htol hr)
    rw [hT, hpivot]
    exact hbelow r hj
  · obtain ⟨u, hu⟩ := hplace d
    have hkept := Sweep.run_keepsColumn hu d.row_lt hsweep
    refine ⟨u, hu, ?_, ?_⟩
    · rw [hT, hkept.pivot, Progress.clearBelow_working_above (le_refl _)]
    · rw [hT, ← hu.cleared_isZero_iff hfinite htol]
      exact hkept.forall_below_iff (Binary64.isZero · = true)
  · obtain ⟨blocks, hblocks, hlog, _⟩ := triangulate_blocks hcolumn
    exact ⟨blocks, hblocks.kinds Eliminates.kinds, hlog⟩

/-- A factor of `1 / 49`, which does not multiply back, over entries that are not small. -/
def fortyNinths : Tableau Binary64 2 2 :=
  ⟨#v[#v[.ofInt 53876069761024, .zero], #v[.ofInt 1099511627776, .one]]⟩

theorem triangular_up_to_rounding_two :
    Binary64.zero.lt Tolerance.pivot = true ∧
      fortyNinths.StaysFinite Progress.clearBelow Tolerance.pivot ∧
      (fortyNinths.triangulate Tolerance.pivot .empty).singularColumn = none ∧
      ((fortyNinths.triangulate Tolerance.pivot .empty).triangular 1 0).AtMost
        ((Binary64.ofInt 53876069761024).units.natAbs / 2 ^ 52) ∧
      ∃ u, Sweep.Passes Progress.clearBelow Tolerance.pivot (.start fortyNinths .off)
          ⟨0, Nat.two_pos, Nat.two_pos⟩ u ∧
        ¬ u.FactorsMultiplyBack ⟨0, Nat.two_pos, Nat.two_pos⟩ := by
  have htol : Binary64.zero.lt Tolerance.pivot = true := by decide +kernel
  have hfinite : fortyNinths.StaysFinite Progress.clearBelow Tolerance.pivot := by decide +kernel
  have hcolumn : (fortyNinths.triangulate Tolerance.pivot .empty).singularColumn = none := by
    decide +kernel
  have hpivot : (fortyNinths.triangulate Tolerance.pivot .empty).triangular 0 0 =
      .ofInt 53876069761024 := by decide +kernel
  have hentry : ((fortyNinths.triangulate Tolerance.pivot .empty).triangular 1 0).isZero =
      false := by decide +kernel
  obtain ⟨hsmall, hplaces, _⟩ := triangular_up_to_rounding fortyNinths htol hfinite hcolumn
  obtain ⟨u, hu, _, hiff⟩ := hplaces ⟨0, Nat.two_pos, Nat.two_pos⟩
  have hbound := hsmall 1 0 (by decide)
  rw [hpivot] at hbound
  exact ⟨htol, hfinite, hcolumn, hbound, u, hu, fun hback =>
    Bool.false_ne_true (hentry.symm.trans (hiff.mpr hback 1 (by decide)))⟩

/-- A quotient that is too small for a number, so that its row is passed over. -/
def vanishingFactor : Tableau Binary64 2 2 :=
  ⟨#v[#v[.ofInt (2 ^ 1000), .zero], #v[.ofRatio false 1 (2 ^ 100), .one]]⟩

/-- **A triangular reduction can end with entries below the diagonal.** Nothing overflows and no
column is singular, and yet a remainder of `2 ^ (-13)` stands below the pivot of the first tableau,
and the entry of the second one stands there unchanged. The last tableaus that are recorded show
them. -/
theorem triangular_keeps_remainder :
    Binary64.zero.lt Tolerance.pivot = true ∧ Tolerance.pivot.isFinite = true ∧
    (∀ A ∈ [fortyNinths, vanishingFactor],
      A.StaysFinite Progress.clearBelow Tolerance.pivot ∧
      (A.triangulate Tolerance.pivot .empty).singularColumn = none ∧
      (A.triangulate Tolerance.pivot .empty).value.isFinite = true ∧
      ((A.triangulate Tolerance.pivot .empty).triangular 1 0).isZero = false ∧
      ((A.triangulate Tolerance.pivot .empty).log.steps.filterMap Step.tableau?).getLast? =
        some (A.triangulate Tolerance.pivot .empty).triangular.toLists) ∧
    (fortyNinths.triangulate Tolerance.pivot .empty).triangular 1 0 = .ofRatio false 1 (2 ^ 13) ∧
    (vanishingFactor.triangulate Tolerance.pivot .empty).triangular 1 0 =
      .ofRatio false 1 (2 ^ 100) := by
  decide +kernel

end Tableau

end RowReduction
