import RowReduction.Proofs.Elimination.GaussJordanLog
import RowReduction.Proofs.Elimination.SideBySide
import RowReduction.Proofs.Elimination.TriangularLog
import RowReduction.Proofs.Exact.Cramer

/-!
Gauss-Jordan reduction and triangular reduction in lockstep, over the rationals. One divides its
pivot rows and clears whole columns, the other clears only below and skips what is zero already; but
where neither has worked yet, both show the same numbers, so they choose the same pivots in the same
rows and stall at the same column. Cramer's rule, which starts with a triangular reduction, therefore
refuses a system for want of a pivot exactly where Gauss-Jordan reduction does.
-/
namespace RowReduction

open Tableau

variable {n : Nat}

namespace Progress

/-- A sweep over an augmented tableau and one over the matrix alone show the same numbers from place
`k` on, to the right and down. -/
def SameFrom {α : Type} (k : Nat) (s : Progress α n (n + 1)) (t : Progress α n n) : Prop :=
  ∀ r j : Fin n, k ≤ r.val → k ≤ j.val → s.working r j.castSucc = t.working r j

/-- **The lockstep invariant** after `k` places: the two sweeps show the same numbers from there on,
and have made the same exchanges and taken the same pivots. -/
structure InStep {α : Type} (k : Nat) (s : Progress α n (n + 1)) (t : Progress α n n) : Prop where
  same : SameFrom k s t
  swaps : s.swaps = t.swaps
  pivots : s.pivots = t.pivots
  exchanges : s.log.exchanges? = t.log.exchanges?

section Pivoting

variable {α : Type} [Scalar α] {k : Nat} {s : Progress α n (n + 1)} {t : Progress α n n}

theorem SameFrom.choice_eq (h : SameFrom k s t) (hk : k < n) (hk' : k < n + 1) :
    s.choice ⟨k, hk, hk'⟩ = t.choice ⟨k, hk, hk⟩ :=
  pivotRow_congr fun r hr => h r ⟨k, hk⟩ hr (le_refl k)

theorem SameFrom.candidate_eq (h : SameFrom k s t) (hk : k < n) (hk' : k < n + 1) :
    s.candidate ⟨k, hk, hk'⟩ = t.candidate ⟨k, hk, hk⟩ := by
  rw [candidate, candidate, h.choice_eq hk hk']
  exact congrArg Scalar.abs (h _ ⟨k, hk⟩ (t.le_choice ⟨k, hk, hk⟩) (le_refl k))

/-- Both sweeps exchange the same rows, and these lie where they agree. -/
theorem SameFrom.pivoted (h : SameFrom k s t) (hk : k < n) (hk' : k < n + 1) :
    SameFrom k (s.pivoted ⟨k, hk, hk'⟩) (t.pivoted ⟨k, hk, hk⟩) := by
  intro r j hr hj
  rw [pivoted_working, pivoted_working, h.choice_eq hk hk', swapRows_apply, swapRows_apply]
  -- the row that comes up, the row that makes room for it, and a row that stays
  exact ite_congr rfl (fun _ => h _ j (t.le_choice ⟨k, hk, hk⟩) hj) fun _ =>
    ite_congr rfl (fun _ => h _ j (le_refl k) hj) fun _ => h r j hr hj

end Pivoting

/-- Clearing below subtracts from every row below the pivot: where the factor is zero and the row is
skipped, there was nothing to subtract. -/
theorem clearBelow_working_below {m : Nat} (d : Diagonal m n) (s : Progress ℚ m n) {r : Fin m}
    {j : Fin n} (hr : d.row < r) (hj : d.index ≤ j.val) :
    (s.clearBelow d).working r j =
      s.working r j - s.working r d.column / s.working d.row d.column * s.working d.row j := by
  rw [clearBelow_working]
  split
  · rfl
  · -- to the right of a pivot, only a factor of zero makes a row be left alone
    rename_i hskipped
    have hfactor : s.working r d.column / s.working d.row d.column = 0 := by
      by_contra hne
      exact hskipped ⟨hr, Bool.eq_false_iff.mpr ((Exact.isZero_iff _).not.mpr hne), hj⟩
    rw [hfactor, zero_mul, sub_zero]

/-- **Both clearing rules leave the same below the pivot**: one subtracts the entry times the divided
pivot row, the other the divided entry times the pivot row. -/
theorem SameFrom.cleared {k : Nat} {s : Progress ℚ n (n + 1)} {t : Progress ℚ n n}
    (h : SameFrom k s t) (hk : k < n) (hk' : k < n + 1) :
    SameFrom (k + 1) (s.clearColumn ⟨k, hk, hk'⟩) (t.clearBelow ⟨k, hk, hk⟩) := by
  intro r j hr hj
  have hbelow : (⟨k, hk⟩ : Fin n) < r := hr
  have hdown : k ≤ r.val := Nat.le_of_succ_le hr
  have hright : k ≤ j.val := Nat.le_of_succ_le hj
  have hcolumn : s.working r (Fin.castSucc ⟨k, hk⟩) = t.working r ⟨k, hk⟩ :=
    h r ⟨k, hk⟩ hdown (le_refl k)
  have hpivot : s.working ⟨k, hk⟩ (Fin.castSucc ⟨k, hk⟩) = t.working ⟨k, hk⟩ ⟨k, hk⟩ :=
    h ⟨k, hk⟩ ⟨k, hk⟩ (le_refl k) (le_refl k)
  calc (s.clearColumn ⟨k, hk, hk'⟩).working r j.castSucc
      = s.working r j.castSucc - s.working r (Fin.castSucc ⟨k, hk⟩) *
          (s.working ⟨k, hk⟩ j.castSucc / s.working ⟨k, hk⟩ (Fin.castSucc ⟨k, hk⟩)) :=
        (clearColumn_working _ _ _ _).trans ((if_pos hright).trans (if_neg hbelow.ne'))
    _ = t.working r j -
          t.working r ⟨k, hk⟩ / t.working ⟨k, hk⟩ ⟨k, hk⟩ * t.working ⟨k, hk⟩ j := by
        rw [hcolumn, hpivot, h r j hdown hright, h ⟨k, hk⟩ j (le_refl k) hright, mul_div_assoc',
          div_mul_eq_mul_div]
    _ = (t.clearBelow ⟨k, hk, hk⟩).working r j :=
        (clearBelow_working_below ⟨k, hk, hk⟩ t hbelow hright).symm

/-- Nothing was done to the numbers before the first place; the augmented tableau may be recorded
already. -/
theorem InStep.start {α : Type} (A : Tableau α n n) (b : Vector α n) (log : Log α) :
    InStep 0 (.start (A.augment b) (log.record fun _ => .initial (A.augment b).toLists))
      (.start A log) where
  same := fun r j _ _ => A.augment_castSucc b r j
  swaps := rfl
  pivots := rfl
  exchanges := Log.exchanges?_record rfl

/-- **One place preserves the invariant.** -/
theorem InStep.step {k : Nat} {s : Progress ℚ n (n + 1)} {t : Progress ℚ n n} (h : InStep k s t)
    (hk : k < n) (hk' : k < n + 1) :
    InStep (k + 1) ((s.pivoted ⟨k, hk, hk'⟩).clearColumn ⟨k, hk, hk'⟩)
      ((t.pivoted ⟨k, hk, hk⟩).clearBelow ⟨k, hk, hk⟩) where
  same := (h.same.pivoted hk hk').cleared hk hk'
  swaps := by
    rw [clearColumn_swaps, clearBelow_swaps, pivoted_swaps, pivoted_swaps,
      h.same.choice_eq hk hk', h.swaps]
    rfl
  pivots := by
    rw [clearColumn_pivots, clearBelow_pivots, pivoted_pivots, pivoted_pivots, h.pivots]
    exact congrArg (t.pivots ++ [·])
      (h.same.pivoted hk hk' ⟨k, hk⟩ ⟨k, hk⟩ (le_refl k) (le_refl k))
  exchanges := by
    rw [clearColumn_takes.exchanges?_eq, clearBelow_takes.exchanges?_eq, h.exchanges,
      h.same.choice_eq hk hk']
    rfl

end Progress

/-- A triangular reduction reports a singular column: it names the column `c`, the largest magnitude
that its tableau has left there from the diagonal down is `v`, and that is what it records last. -/
structure Triangulation.ReportsSingular (T : Triangulation ℚ n n) (tolerance : ℚ) (c : Nat)
    (v : ℚ) : Prop where
  column : T.singularColumn = some c
  candidate : ∃ hc : c < n,
    IsGreatest ((fun r => |T.triangular r ⟨c, hc⟩|) '' Set.Ici ⟨c, hc⟩) v
  recorded : ∃ before : Log ℚ,
    T.log = before.record fun _ => .singularPivot c v tolerance T.triangular.toLists

namespace Tableau

section Endings

variable (A : Tableau ℚ n n) (b : Vector ℚ n) (tolerance : ℚ) (log : Log ℚ)

/-- **The sweeps of both reductions stay in step** for any number of places. -/
theorem places_inStep (k : Nat) (hk : k ≤ n) :
    Sweep.Alike Progress.InStep k
      (Sweep.run Progress.clearColumn tolerance
        (.start (A.augment b) (log.record fun _ => .initial (A.augment b).toLists)) k hk
        (Nat.le_succ_of_le hk))
      (Sweep.run Progress.clearBelow tolerance (.start A log) k hk hk) :=
  Sweep.run_alike (.start A b log) (fun _ hm hn _ _ _ h => h.same.candidate_eq hm hn)
    (fun _ hm hn _ _ _ h _ => h.step hm hn) k hk (Nat.le_succ_of_le hk) hk

theorem sweeps_inStep :
    Sweep.Alike Progress.InStep n (A.gaussJordanSweep b tolerance log)
      (A.triangularSweep tolerance log) := by
  rw [triangularSweep_square]
  exact A.places_inStep b tolerance log n (le_refl n)

/-- The steps that end a log are no exchanges. -/
theorem exchanges_eq :
    (endingLog (A.gaussJordan b tolerance log)).exchanges? =
      (A.triangulate tolerance log).log.exchanges? := by
  have hsweeps := A.sweeps_inStep b tolerance log
  rw [gaussJordan, triangulate]
  generalize A.gaussJordanSweep b tolerance log = x at hsweeps ⊢
  generalize A.triangularSweep tolerance log = y at hsweeps ⊢
  cases hsweeps with
  | @complete s t h =>
      calc s.reduction.log.exchanges? = s.log.exchanges? := Log.exchanges?_record rfl
        _ = t.log.exchanges? := h.exchanges
        _ = (t.log.record fun _ => .triangular t.working.toLists t.sign).exchanges? :=
          (Log.exchanges?_record rfl).symm
        _ = t.triangulation.log.exchanges? := (Log.exchanges?_record rfl).symm
  | stalled _ h => exact h.exchanges.trans (Log.exchanges?_record rfl).symm

end Endings

variable {A : Tableau ℚ n n} {b : Vector ℚ n} {tolerance : ℚ} {log : Log ℚ} {recording : Bool}

/-- When Gauss-Jordan reduction has an answer, no column is singular, and the counts agree. -/
theorem counts_eq_of_ok {r : Reduction ℚ n} (h : A.gaussJordan b tolerance log = .ok r) :
    (A.triangulate tolerance log).singularColumn = none ∧
      r.swaps = (A.triangulate tolerance log).swaps ∧
      r.pivots = (A.triangulate tolerance log).pivots := by
  obtain ⟨s, hs, rfl⟩ := gaussJordan_of_ok h
  have hsweeps := A.sweeps_inStep b tolerance log
  rw [hs] at hsweeps
  rw [triangulate]
  generalize A.triangularSweep tolerance log = y at hsweeps ⊢
  cases hsweeps with
  | complete hstep => exact ⟨rfl, hstep.swaps, hstep.pivots⟩

/-- A sweep stalls with the largest magnitude that is left in the column. -/
theorem isGreatest_of_stalled {c : Nat} {v : ℚ} {t : Progress ℚ n n}
    (h : A.triangularSweep tolerance log = .stalled c v t) : ∃ hc : c < n,
      IsGreatest ((fun r => |t.working r ⟨c, hc⟩|) '' Set.Ici ⟨c, hc⟩) v := by
  obtain ⟨d, rfl, rfl, _⟩ := Sweep.run_stalled _ _ _ h
  exact ⟨d.column_lt, t.isGreatest_candidate d⟩

/-- A triangular reduction reports what its sweep stalled at. -/
theorem reportsSingular_iff {c : Nat} {v : ℚ} :
    (A.triangulate tolerance log).ReportsSingular tolerance c v ↔
      ∃ t, A.triangularSweep tolerance log = .stalled c v t := by
  constructor
  · rintro ⟨hcolumn, ⟨hc, hv⟩, _⟩
    obtain ⟨w, t, hsweep, ht⟩ := triangulate_of_some hcolumn
    obtain ⟨_, hw⟩ := isGreatest_of_stalled hsweep
    -- a column has one largest magnitude, so the one reported is the one that the sweep saw
    rw [ht] at hv
    rw [hv.unique hw]
    exact ⟨t, hsweep⟩
  · rintro ⟨t, ht⟩
    rw [triangulate, ht]
    exact ⟨rfl, isGreatest_of_stalled ht, t.log, rfl⟩

/-- **Both reductions refuse the same column**, with the same candidate. -/
theorem breakdown_iff_reportsSingular {c : Nat} {v : ℚ} :
    (∃ f, A.gaussJordan b tolerance log = .error f ∧ f.column = c ∧ f.candidate = v) ↔
      (A.triangulate tolerance log).ReportsSingular tolerance c v :=
  calc (∃ f, A.gaussJordan b tolerance log = .error f ∧ f.column = c ∧ f.candidate = v)
      ↔ ∃ s, A.gaussJordanSweep b tolerance log = .stalled c v s := gaussJordan_error_iff
    _ ↔ ∃ t, A.triangularSweep tolerance log = .stalled c v t :=
      (A.sweeps_inStep b tolerance log).stalled_iff c v
    _ ↔ (A.triangulate tolerance log).ReportsSingular tolerance c v := reportsSingular_iff.symm

/-- A system without a pivot somewhere is refused by Cramer's rule, which finds determinant zero. -/
theorem cramer_of_breakdown (htol : 0 < tolerance) {f : Breakdown ℚ}
    (h : A.gaussJordan b tolerance log = .error f) :
    A.cramer b tolerance recording = .error (.singular 0 tolerance (some f.column)) := by
  have hreports := breakdown_iff_reportsSingular.mp ⟨f, h, rfl, rfl⟩
  have hcolumn : (A.triangulate tolerance (.start recording)).singularColumn = some f.column := by
    rw [triangulate_singularColumn_eq A tolerance _ log]
    exact hreports.column
  have hvalue := triangulate_value_singular hcolumn
  have hlt : Scalar.lt (Scalar.abs (A.triangulate tolerance (.start recording)).value) tolerance =
      true := by
    rw [hvalue, Exact.abs_eq, abs_zero, Exact.lt_iff]
    exact htol
  rw [cramer_of_lt hlt, hvalue, hcolumn]

/-- A system that Cramer's rule refuses because of a column breaks down there. -/
theorem breakdown_of_cramer (htol : 0 < tolerance) {D t : ℚ} {c : Nat}
    (h : A.cramer b tolerance recording = .error (.singular D t (some c))) :
    ∃ f, A.gaussJordan b tolerance log = .error f ∧ f.column = c := by
  obtain ⟨_, _, hcolumn⟩ := cramer_of_singular (isZero_of_lt_false htol) h
  rw [triangulate_singularColumn_eq A tolerance _ log] at hcolumn
  obtain ⟨v, t, hsweep, _⟩ := triangulate_of_some hcolumn.symm
  obtain ⟨f, hf, hc, _⟩ := breakdown_iff_reportsSingular.mpr (reportsSingular_iff.mpr ⟨t, hsweep⟩)
  exact ⟨f, hf, hc⟩

/-- **Gauss-Jordan and triangular reduction run in lockstep over the rationals.** After any number of
places both are complete or both have stalled, with the same exchanges and pivots so far, the same
numbers ahead and the same choice of the next pivot row; their logs show the same exchanges. One has
an answer when the other finds no singular column, and then the counts agree; one breaks down with a
column and a candidate exactly when the other reports them. So Cramer's rule refuses a system for
want of a pivot exactly where Gauss-Jordan reduction breaks down, and then has determinant zero. -/
theorem gaussJordan_in_step_with_triangulate (A : Tableau ℚ n n) (b : Vector ℚ n)
    (htol : 0 < tolerance) (log : Log ℚ) (recording : Bool) :
    let T := A.triangulate tolerance log
    let initial := log.record fun _ => .initial (A.augment b).toLists
    (∀ k (hk : k ≤ n), Sweep.Alike
      (fun c s t => Progress.InStep c s t ∧
        ∀ hc : c < n, s.choice ⟨c, hc, Nat.lt_succ_of_lt hc⟩ = t.choice ⟨c, hc, hc⟩) k
      (Sweep.run Progress.clearColumn tolerance (.start (A.augment b) initial) k hk
        (Nat.le_succ_of_le hk))
      (Sweep.run Progress.clearBelow tolerance (.start A log) k hk hk)) ∧
    (endingLog (A.gaussJordan b tolerance log)).exchanges? = T.log.exchanges? ∧
    (∀ r, A.gaussJordan b tolerance log = .ok r →
      T.singularColumn = none ∧ r.swaps = T.swaps ∧ r.pivots = T.pivots) ∧
    (∀ c v, (∃ f, A.gaussJordan b tolerance log = .error f ∧ f.column = c ∧ f.candidate = v) ↔
      T.ReportsSingular tolerance c v) ∧
    (∀ f, A.gaussJordan b tolerance log = .error f →
      A.cramer b tolerance recording = .error (.singular 0 tolerance (some f.column))) ∧
    (∀ D t c, A.cramer b tolerance recording = .error (.singular D t (some c)) →
      ∃ f, A.gaussJordan b tolerance log = .error f ∧ f.column = c) := by
  refine ⟨?_, A.exchanges_eq b tolerance log, fun r hr => counts_eq_of_ok hr,
    fun c v => breakdown_iff_reportsSingular, fun f hf => cramer_of_breakdown htol hf,
    fun D t c h => breakdown_of_cramer htol h⟩
  intro k hk
  exact (A.places_inStep b tolerance log k hk).mono fun h =>
    ⟨h, fun hc => h.same.choice_eq hc (Nat.lt_succ_of_lt hc)⟩

theorem gaussJordan_in_step_with_triangulate_three :
    (0 : ℚ) < 1 / 10 ^ 12 ∧
      (∃ r, threeEquations.gaussJordan #v[8, -11, -3] (1 / 10 ^ 12) .empty = .ok r ∧
        r.swaps = (threeEquations.triangulate (1 / 10 ^ 12) .empty).swaps ∧
        r.pivots = (threeEquations.triangulate (1 / 10 ^ 12) .empty).pivots) ∧
      ∃ f, dependentColumns.gaussJordan #v[1, 2, 3] (1 / 10 ^ 12) .empty = .error f ∧
        f.column = 1 ∧
        (dependentColumns.triangulate (1 / 10 ^ 12) .empty).ReportsSingular (1 / 10 ^ 12) 1
          f.candidate ∧
        dependentColumns.cramer #v[1, 2, 3] (1 / 10 ^ 12) true =
          .error (.singular 0 (1 / 10 ^ 12) (some 1)) := by
  have htol : (0 : ℚ) < 1 / 10 ^ 12 := by norm_num
  have hrun : (threeEquations.gaussJordan #v[8, -11, -3] (1 / 10 ^ 12) .empty).toOption.map
      Reduction.swaps = some 2 := by decide +kernel
  have hsome : (dependentColumns.triangulate (1 / 10 ^ 12) .empty).singularColumn = some 1 := by
    decide +kernel
  obtain ⟨r, hr, _⟩ := eq_ok_of_toOption_map_eq_some hrun
  obtain ⟨_, _, hcounts, _, _, _⟩ :=
    gaussJordan_in_step_with_triangulate threeEquations #v[8, -11, -3] htol .empty true
  obtain ⟨_, _, hanswer, hbreakdown, hcramer, _⟩ :=
    gaussJordan_in_step_with_triangulate dependentColumns #v[1, 2, 3] htol .empty true
  refine ⟨htol, ⟨r, hr, (hcounts r hr).2⟩, ?_⟩
  cases hend : dependentColumns.gaussJordan #v[1, 2, 3] (1 / 10 ^ 12) .empty with
  | ok s => exact nomatch (hanswer s hend).1.symm.trans hsome
  | error f =>
      have hreports := (hbreakdown f.column f.candidate).mp ⟨f, hend, rfl, rfl⟩
      have hcolumn : f.column = 1 := Option.some.inj (hreports.column.symm.trans hsome)
      rw [hcolumn] at hreports
      refine ⟨f, rfl, hcolumn, hreports, ?_⟩
      rw [hcramer f hend, hcolumn]

end Tableau

end RowReduction
