import RowReduction.Proofs.Elimination.Replay
import RowReduction.Proofs.Elimination.SideBySide
import RowReduction.Proofs.Exact.Determinant
import RowReduction.Proofs.Exact.GaussJordan

/-!
Reductions in two units of measure, over the rationals. When every number of a system and the
tolerance are multiplied by the same positive number, all candidates keep their order and every test
comes out the same. Triangular reduction then makes the same operations on a multiple of the
tableau. Gauss-Jordan reduction divides the factor out row by row: a row that has been pivot row no
longer shows in which units the system was measured, and in the end none does.
-/
namespace RowReduction

open Tableau

variable {m n : Nat}

/-- A row operation as a step names it, without the tableau that it led to. -/
def Step.operation? {τ σ α : Type} : Step τ σ α → Option (Step Unit Unit α)
  | swap row pivotRow _ => some (swap row pivotRow ())
  | normalize row pivot _ => some (normalize row pivot ())
  | eliminate source target factor _ => some (eliminate source target factor ())
  | _ => none

namespace Log

variable {α : Type}

/-- The row operations in a log, first to last. -/
def operations? (log : Log α) : Option (List (Step Unit Unit α)) :=
  log.steps?.map (·.filterMap Step.operation?)

theorem operations?_record (log : Log α) (step : Unit → RowStep α) :
    (log.record step).operations? =
      log.operations?.map (· ++ (step ()).operation?.toList) := by
  rw [operations?, operations?, steps?_record, Option.map_map, Option.map_map]
  congr 1
  funext steps
  simp only [Function.comp_apply, List.filterMap_append]
  cases h : (step ()).operation? <;> simp [h]

/-- Logs with the same operations still have the same ones when one more is recorded in each. -/
theorem operations?_record_congr {log log' : Log α} {step step' : Unit → RowStep α}
    (h : log'.operations? = log.operations?)
    (hstep : (step' ()).operation? = (step ()).operation?) :
    (log'.record step').operations? = (log.record step).operations? := by
  rw [operations?_record, operations?_record, h, hstep]

end Log

/-- Every entry multiplied by `c`. -/
def Tableau.scale {α : Type} [Mul α] (c : α) (M : Tableau α m n) : Tableau α m n :=
  ofFn fun i j => c * M i j

@[simp] theorem Tableau.scale_apply {α : Type} [Mul α] (c : α) (M : Tableau α m n) (i : Fin m)
    (j : Fin n) : M.scale c i j = c * M i j := by
  simp [scale]

theorem Tableau.augment_scale {α : Type} [Mul α] (c : α) (A : Tableau α n n) (b : Vector α n) :
    (A.scale c).augment (b.map (c * ·)) = (A.augment b).scale c := by
  ext i j
  rw [scale_apply, augment_apply, augment_apply]
  split
  · exact scale_apply c A i _
  · exact Vector.getElem_map _ _

/-! ## One place -/

namespace Progress

variable {c : ℚ} {d : Diagonal m n} {s t : Progress ℚ m n}

/-- From row `d.row` down, the second state has `c` times the candidates of the first one. -/
def ScaledCandidates (c : ℚ) (d : Diagonal m n) (s t : Progress ℚ m n) : Prop :=
  ∀ r, d.row ≤ r → t.working r d.column = c * s.working r d.column

/-- Candidates in other units rank as before. -/
theorem ScaledCandidates.choice_eq (h : ScaledCandidates c d s t) (hc : 0 < c) :
    s.choice d = t.choice d := by
  refine pivotRow_eq_of_outranks fun r q hr hq => ?_
  rw [Bool.eq_iff_iff, Exact.outranks_iff, Exact.outranks_iff, h r hr, h q hq, abs_mul, abs_mul,
    mul_lt_mul_iff_right₀ (abs_pos.mpr hc.ne')]

theorem ScaledCandidates.candidate_eq (h : ScaledCandidates c d s t) (hc : 0 < c) :
    t.candidate d = c * s.candidate d := by
  rw [candidate, candidate, ← h.choice_eq hc, h _ (s.le_choice d), Exact.abs_eq, Exact.abs_eq,
    abs_mul, abs_of_pos hc]

/-- **A Gauss-Jordan sweep in other units**, after `k` places: the counts agree, the pivots are
multiplied by `c`, and so is what lies to the right and down from there; everything else is the
same. -/
structure ScaledFrom (c : ℚ) (k : Nat) (s t : Progress ℚ m n) : Prop where
  working : ∀ r j, t.working r j =
    if k ≤ r.val ∧ k ≤ j.val then c * s.working r j else s.working r j
  swaps : t.swaps = s.swaps
  pivots : t.pivots = s.pivots.map (c * ·)

theorem ScaledFrom.candidates (h : ScaledFrom c d.index s t) : ScaledCandidates c d s t := by
  intro r hr
  rw [h.working, if_pos ⟨hr, le_refl _⟩]

/-- Both sweeps exchange the same rows, and both of these are measured in the sweep's own units. -/
theorem ScaledFrom.pivoted (h : ScaledFrom c d.index s t) (hc : 0 < c) :
    (t.pivoted d).swaps = (s.pivoted d).swaps ∧
      (t.pivoted d).pivots = (s.pivoted d).pivots.map (c * ·) ∧
      ∀ r j, (t.pivoted d).working r j =
        if d.index ≤ r.val ∧ d.index ≤ j.val then c * (s.pivoted d).working r j
        else (s.pivoted d).working r j := by
  have hchoice := h.candidates.choice_eq hc
  have hworking : ∀ r j, (t.pivoted d).working r j =
      if d.index ≤ r.val ∧ d.index ≤ j.val then c * (s.pivoted d).working r j
      else (s.pivoted d).working r j := by
    intro r j
    have hrow : d.index ≤ d.row.val := le_refl _
    have hup : d.index ≤ (s.choice d).val := s.le_choice d
    rw [pivoted_working, pivoted_working, ← hchoice, swapRows_apply, swapRows_apply]
    by_cases hr : r = d.row
    · subst hr
      simp only [if_true, h.working, hup, hrow]
    · by_cases hp : r = s.choice d
      · subst hp
        simp only [if_neg hr, if_true, h.working, hup, hrow]
      · simp only [if_neg hr, if_neg hp, h.working]
  refine ⟨?_, ?_, hworking⟩
  · rw [pivoted_swaps, pivoted_swaps, hchoice, h.swaps]
  · rw [pivoted_pivots, pivoted_pivots, h.pivots, List.map_append, hworking,
      if_pos ⟨le_refl _, le_refl _⟩]
    rfl

/-- **One place of a Gauss-Jordan sweep**: the factor cancels in the divided pivot row, and the rows
below lose multiples of it in their own units. -/
theorem ScaledFrom.step (h : ScaledFrom c d.index s t) (hc : 0 < c)
    (hpivot : (s.pivoted d).working d.row d.column ≠ 0) :
    ScaledFrom c (d.index + 1) ((s.pivoted d).clearColumn d) ((t.pivoted d).clearColumn d) := by
  obtain ⟨hswaps, hpivots, hworking⟩ := h.pivoted hc
  generalize s.pivoted d = u at hswaps hpivots hworking hpivot ⊢
  generalize t.pivoted d = v at hswaps hpivots hworking ⊢
  refine ⟨?_, by rw [clearColumn_swaps, clearColumn_swaps, hswaps],
    by rw [clearColumn_pivots, clearColumn_pivots, hpivots]⟩
  intro r j
  have hrow : d.row.val = d.index := rfl
  have hcolumn : d.column.val = d.index := rfl
  rw [clearColumn_working, clearColumn_working]
  rcases lt_or_ge j.val d.index with hj | hj
  · -- the columns to the left are the same and are not touched
    rw [if_neg (by omega), if_neg (by omega), if_neg (by omega), hworking, if_neg (by omega)]
  have hquotient : v.working d.row j / v.working d.row d.column =
      u.working d.row j / u.working d.row d.column := by
    rw [hworking, hworking, if_pos ⟨le_refl _, hj⟩, if_pos ⟨le_refl _, le_refl _⟩,
      mul_div_mul_left _ _ hc.ne']
  rw [if_pos hj, if_pos hj, hquotient]
  rcases lt_trichotomy r.val d.index with hr | hr | hr
  · have hne : r ≠ d.row := fun e => by omega
    rw [if_neg hne, if_neg hne, if_neg (by omega), hworking, hworking, if_neg (by omega),
      if_neg (by omega)]
  · have heq : r = d.row := Fin.ext hr
    rw [if_pos heq, if_pos heq, if_neg (by omega), heq, hquotient]
  · have hne : r ≠ d.row := fun e => by omega
    rw [if_neg hne, if_neg hne, hworking, hworking, if_pos ⟨hr.le, hj⟩,
      if_pos ⟨hr.le, le_refl _⟩]
    have hscaled : c * u.working r j - c * u.working r d.column *
        (u.working d.row j / u.working d.row d.column) =
        c * (u.working r j - u.working r d.column *
          (u.working d.row j / u.working d.row d.column)) := by ring
    rw [hscaled]
    rcases Nat.eq_or_lt_of_le hj with hj | hj
    · -- in the pivot column nothing is left in either unit
      have heq : j = d.column := Fin.ext hj.symm
      rw [if_neg (by omega), heq, div_self hpivot, mul_one, sub_self, mul_zero]
    · rw [if_pos ⟨hr, hj⟩]

/-- **A triangular sweep in other units**: the tableau and the pivots are multiplied by `c`, and the
exchanges and the eliminations are the same. -/
structure Scaled (c : ℚ) (s t : Progress ℚ m n) : Prop where
  working : ∀ r j, t.working r j = c * s.working r j
  swaps : t.swaps = s.swaps
  pivots : t.pivots = s.pivots.map (c * ·)
  operations : t.log.operations? = s.log.operations?

theorem Scaled.candidates (h : Scaled c s t) (d : Diagonal m n) : ScaledCandidates c d s t :=
  fun r _ => h.working r d.column

theorem Scaled.bringUp (h : Scaled c s t) (i p : Fin m) :
    Scaled c (s.bringUp i p) (t.bringUp i p) where
  working := by
    intro r j
    rw [bringUp_working, bringUp_working, swapRows_apply, swapRows_apply, h.working, h.working,
      h.working, mul_ite, mul_ite]
  swaps := by rw [bringUp_swaps, bringUp_swaps, h.swaps]
  pivots := by rw [bringUp_pivots, bringUp_pivots, h.pivots]
  operations := by
    rw [Progress.bringUp, Progress.bringUp]
    split
    · exact h.operations
    · exact Log.operations?_record_congr h.operations rfl

theorem Scaled.pivoted (h : Scaled c s t) (hc : 0 < c) (d : Diagonal m n) :
    Scaled c (s.pivoted d) (t.pivoted d) := by
  have hup := h.bringUp d.row (s.choice d)
  rw [Progress.pivoted, Progress.pivoted, ← (h.candidates d).choice_eq hc]
  refine ⟨hup.working, hup.swaps, ?_, hup.operations⟩
  rw [takePivot_pivots, takePivot_pivots, hup.pivots, hup.working, List.map_append]
  rfl

/-- The factor of an elimination is a quotient, and does not depend on the units. -/
theorem Scaled.clearBelowRow (h : Scaled c s t) (hc : 0 < c) (d : Diagonal m n) (pivot : ℚ)
    (r : Fin m) : Scaled c (clearBelowRow d pivot s r) (clearBelowRow d (c * pivot) t r) := by
  have hfactor : t.working r d.column / (c * pivot) = s.working r d.column / pivot := by
    rw [h.working, mul_div_mul_left _ _ hc.ne']
  simp only [Progress.clearBelowRow, hfactor]
  split
  · exact h
  · refine ⟨?_, h.swaps, h.pivots, ?_⟩
    · intro q j
      rw [eliminate, eliminate, become_working, become_working, subtractRow_apply,
        subtractRow_apply, h.working, h.working]
      split
      · ring
      · rfl
    · exact Log.operations?_record_congr h.operations rfl

/-- **One place of a triangular sweep.** -/
theorem Scaled.step (h : Scaled c s t) (hc : 0 < c) (d : Diagonal m n) :
    Scaled c ((s.pivoted d).clearBelow d) ((t.pivoted d).clearBelow d) := by
  have hpivoted := h.pivoted hc d
  have hfold (rows : List (Fin m)) (pivot : ℚ) : ∀ {u v : Progress ℚ m n}, Scaled c u v →
      Scaled c (rows.foldl (Progress.clearBelowRow d pivot) u)
        (rows.foldl (Progress.clearBelowRow d (c * pivot)) v) := by
    induction rows with
    | nil => exact fun huv => huv
    | cons r rest ih => exact fun huv => ih (huv.clearBelowRow hc d pivot r)
  rw [clearBelow, clearBelow, hpivoted.working]
  exact hfold _ _ hpivoted

/-- The determinant counts the factor once for every row. -/
theorem Scaled.signedProduct_eq {s t : Progress ℚ n n} (h : Scaled c s t) :
    t.signedProduct = c ^ n * s.signedProduct := by
  rw [Progress.signedProduct_eq, Progress.signedProduct_eq, h.swaps]
  simp only [h.working, Finset.prod_mul_distrib, Finset.prod_const, Finset.card_univ,
    Fintype.card_fin]
  ring

end Progress

/-! ## Whole reductions -/

/-- How a reduction and the reduction in other units have ended: with the same answer and the pivots
multiplied by `c`, or in the same column with a candidate and a tolerance multiplied by `c`. -/
def EndsInUnits (c : ℚ) :
    Except (Breakdown ℚ) (Reduction ℚ n) → Except (Breakdown ℚ) (Reduction ℚ n) → Prop
  | .ok r, .ok r' =>
    r'.solution = r.solution ∧ r'.reduced = r.reduced ∧ r'.swaps = r.swaps ∧
      r'.pivots = r.pivots.map (c * ·)
  | .error f, .error f' =>
    f'.column = f.column ∧ f'.candidate = c * f.candidate ∧ f'.tolerance = c * f.tolerance
  | _, _ => False

namespace Tableau

variable {tolerance c : ℚ}

/-- The tolerance test does not depend on the units. -/
theorem lt_scaled_iff (hc : 0 < c) (v w : ℚ) (h : w = c * v) :
    Scalar.lt w (c * tolerance) = Scalar.lt v tolerance := by
  rw [Bool.eq_iff_iff, Exact.lt_iff, Exact.lt_iff, h, mul_lt_mul_iff_right₀ hc]

/-- **Gauss-Jordan reduction in other units** has the same answer. -/
theorem gaussJordan_scale (A : Tableau ℚ n n) (b : Vector ℚ n) (htol : 0 < tolerance) (hc : 0 < c)
    (log log' : Log ℚ) :
    EndsInUnits c (A.gaussJordan b tolerance log)
      ((A.scale c).gaussJordan (b.map (c * ·)) (c * tolerance) log') := by
  have hpace : Sweep.KeptPace (Progress.ScaledFrom c) (fun v w => w = c * v) n
      (A.gaussJordanSweep b tolerance log)
      ((A.scale c).gaussJordanSweep (b.map (c * ·)) (c * tolerance) log') := by
    rw [gaussJordanSweep, gaussJordanSweep, augment_scale]
    apply Sweep.run_keptPace
    · refine ⟨fun r j => ?_, rfl, rfl⟩
      rw [if_pos ⟨Nat.zero_le _, Nat.zero_le _⟩]
      exact scale_apply c _ r j
    · exact fun k hm hn _ s t h => (h.candidates (d := ⟨k, hm, hn⟩)).candidate_eq hc
    · exact lt_scaled_iff hc
    · exact fun k hm hn _ s t h hlt =>
        h.step (d := ⟨k, hm, hn⟩) hc (Progress.pivot_ne_zero htol hlt)
  rw [gaussJordan, gaussJordan]
  generalize A.gaussJordanSweep b tolerance log = x at hpace ⊢
  generalize (A.scale c).gaussJordanSweep (b.map (c * ·)) (c * tolerance) log' = y at hpace ⊢
  cases hpace with
  | @complete s t h =>
      -- all rows have been pivot rows, so no entry shows the units any more
      have hworking : t.working = s.working := by
        ext r j
        rw [h.working, if_neg (fun hcond => absurd r.isLt (Nat.not_lt.mpr hcond.1))]
      exact ⟨congrArg (column · (Fin.last n)) hworking, hworking, h.swaps, h.pivots⟩
  | stalled _ _ hcandidate => exact ⟨rfl, hcandidate, rfl⟩

/-- **Triangular reduction in other units** makes the same operations on a multiple of the tableau.
-/
theorem triangulate_scale (A : Tableau ℚ n n) (hc : 0 < c) (log : Log ℚ) :
    let T := A.triangulate tolerance log
    let T' := (A.scale c).triangulate (c * tolerance) log
    T'.log.operations? = T.log.operations? ∧ T'.swaps = T.swaps ∧ T'.sign = T.sign ∧
      T'.pivots = T.pivots.map (c * ·) ∧ T'.triangular = T.triangular.scale c ∧
      T'.singularColumn = T.singularColumn ∧ T'.value = c ^ n * T.value := by
  have hpace : Sweep.KeptPace (fun _ => Progress.Scaled c) (fun v w => w = c * v) n
      (A.triangularSweep tolerance log) ((A.scale c).triangularSweep (c * tolerance) log) := by
    rw [triangularSweep_square, triangularSweep_square]
    apply Sweep.run_keptPace
    · exact ⟨fun r j => scale_apply c A r j, rfl, rfl, rfl⟩
    · exact fun k hm hn _ s t h => (h.candidates ⟨k, hm, hn⟩).candidate_eq hc
    · exact lt_scaled_iff hc
    · exact fun k hm hn _ s t h _ => h.step hc ⟨k, hm, hn⟩
  rw [triangulate, triangulate]
  generalize A.triangularSweep tolerance log = x at hpace ⊢
  generalize (A.scale c).triangularSweep (c * tolerance) log = y at hpace ⊢
  have hscaled {s t : Progress ℚ n n} (h : Progress.Scaled c s t) :
      t.working = s.working.scale c := by
    ext r j
    rw [h.working, scale_apply]
  have hsign {s t : Progress ℚ n n} (h : Progress.Scaled c s t) : t.sign = s.sign := by
    rw [Progress.sign, Progress.sign, h.swaps]
  cases hpace with
  | @complete s t h =>
      have hlog : t.triangulation.log.operations? = s.triangulation.log.operations? :=
        Log.operations?_record_congr (Log.operations?_record_congr h.operations rfl) rfl
      exact ⟨hlog, h.swaps, hsign h, h.pivots, hscaled h, rfl, h.signedProduct_eq⟩
  | @stalled k v w s t _ h hcandidate =>
      exact ⟨Log.operations?_record_congr h.operations rfl, h.swaps, hsign h, h.pivots, hscaled h,
        rfl, (mul_zero _).symm⟩

/-- **A change of units changes only the units.** Over the rationals, with the system and the
tolerance multiplied by `c`, Gauss-Jordan reduction has the same answer after the same number of
exchanges, with the pivots multiplied by `c`, or breaks down in the same column with its candidate
multiplied by `c`. Triangular reduction makes the same exchanges and the same eliminations with the
same factors, and stops in the same column if it does; the determinant is multiplied by `c` once for
every row. -/
theorem reductions_change_units (A : Tableau ℚ n n) (b : Vector ℚ n) (htol : 0 < tolerance)
    (hc : 0 < c) (log : Log ℚ) :
    EndsInUnits c (A.gaussJordan b tolerance log)
      ((A.scale c).gaussJordan (b.map (c * ·)) (c * tolerance) log) ∧
    let T := A.triangulate tolerance log
    let T' := (A.scale c).triangulate (c * tolerance) log
    T'.log.operations? = T.log.operations? ∧ T'.swaps = T.swaps ∧ T'.sign = T.sign ∧
      T'.pivots = T.pivots.map (c * ·) ∧ T'.triangular = T.triangular.scale c ∧
      T'.singularColumn = T.singularColumn ∧ T'.value = c ^ n * T.value :=
  ⟨gaussJordan_scale A b htol hc log log, triangulate_scale A hc log⟩

/-- Three equations in units a thousand times as small, and a tableau with dependent columns, which
stalls in the same column. -/
theorem reductions_change_units_three :
    (0 : ℚ) < 1 / 10 ^ 12 ∧ (0 : ℚ) < 1000 ∧
      (∃ r r', threeEquations.gaussJordan #v[8, -11, -3] (1 / 10 ^ 12) .empty = .ok r ∧
        (threeEquations.scale 1000).gaussJordan (#v[8, -11, -3].map (1000 * ·))
          (1000 * (1 / 10 ^ 12)) .empty = .ok r' ∧
        r'.solution = r.solution ∧ r'.pivots = r.pivots.map (1000 * ·)) ∧
      (threeEquations.triangulate (1 / 10 ^ 12) .empty).value = -1 ∧
      ((threeEquations.scale 1000).triangulate (1000 * (1 / 10 ^ 12)) .empty).value =
        -1000000000 ∧
      ((dependentColumns.scale 1000).triangulate (1000 * (1 / 10 ^ 12)) .empty).singularColumn =
        some 1 := by
  have htol : (0 : ℚ) < 1 / 10 ^ 12 := by norm_num
  have hc : (0 : ℚ) < 1000 := by norm_num
  have hrun : (threeEquations.gaussJordan #v[8, -11, -3] (1 / 10 ^ 12) .empty).toOption.map
      Reduction.swaps = some 2 := by decide +kernel
  have hvalue : (threeEquations.triangulate (1 / 10 ^ 12) .empty).value = -1 := by
    decide +kernel
  have hsome : (dependentColumns.triangulate (1 / 10 ^ 12) .empty).singularColumn = some 1 := by
    decide +kernel
  obtain ⟨hends, _, _, _, _, _, _, hscaled⟩ :=
    reductions_change_units threeEquations #v[8, -11, -3] htol hc .empty
  obtain ⟨_, _, _, _, _, _, hcolumn, _⟩ :=
    reductions_change_units dependentColumns #v[1, 2, 3] htol hc .empty
  refine ⟨htol, hc, ?_, hvalue, ?_, hcolumn.trans hsome⟩
  · obtain ⟨r, hr, _⟩ := eq_ok_of_toOption_map_eq_some hrun
    rw [hr] at hends
    generalize (threeEquations.scale 1000).gaussJordan (#v[8, -11, -3].map (1000 * ·))
      (1000 * (1 / 10 ^ 12)) .empty = y at hends ⊢
    cases y with
    | error f => exact hends.elim
    | ok r' => exact ⟨r, r', hr, rfl, hends.1, hends.2.2.2⟩
  · rw [hscaled, hvalue]
    norm_num

end Tableau

end RowReduction
