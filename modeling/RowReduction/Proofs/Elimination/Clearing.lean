import Mathlib
import RowReduction.Elimination.GaussJordan
import RowReduction.Elimination.Triangular
import RowReduction.Proofs.Elimination.Sweep

/-!
The effect of the two clearing rules in closed form, and the endings of the two reductions that use
them. Both rules go through a list of rows and rewrite each from the pivot row and the row itself,
so the order of the rows does not matter and every row is rewritten from its entries before the
clearing.
-/
namespace RowReduction

variable {α : Type} {m n : Nat}

theorem rowsBelow_nodup (i : Fin m) : (rowsBelow i).Nodup :=
  (List.nodup_finRange m).filter _

theorem rowsBesides_nodup (i : Fin m) : (rowsBesides i).Nodup :=
  (List.nodup_finRange m).filter _

theorem not_mem_rowsBelow (i : Fin m) : i ∉ rowsBelow i := by simp

theorem not_mem_rowsBesides (i : Fin m) : i ∉ rowsBesides i := by simp

namespace Progress

/-- What every single rewriting leaves alone, a fold over rows leaves alone. -/
theorem foldl_frame {β : Type} (view : Progress α m n → β)
    {f : Progress α m n → Fin m → Progress α m n} (hf : ∀ s r, view (f s r) = view s)
    (rows : List (Fin m)) (s : Progress α m n) : view (rows.foldl f s) = view s := by
  induction rows generalizing s with
  | nil => rfl
  | cons r rest ih => rw [List.foldl_cons, ih, hf]

/-- A rule rewrites row `r` from the pivot row `i` and from row `r` itself, and nothing else. -/
def RewritesRow (i : Fin m) (rule : (Fin n → α) → (Fin n → α) → Fin n → α)
    (f : Progress α m n → Fin m → Progress α m n) : Prop :=
  ∀ (s : Progress α m n) (r q : Fin m) (j : Fin n),
    (f s r).working q j =
      if q = r then rule (s.working i) (s.working r) j else s.working q j

/-- **Rows are rewritten independently**: the rule applies to every listed row as it stood before
the first one was rewritten. -/
theorem RewritesRow.foldl {i : Fin m} {rule : (Fin n → α) → (Fin n → α) → Fin n → α}
    {f : Progress α m n → Fin m → Progress α m n} (hf : RewritesRow i rule f)
    {rows : List (Fin m)} (hnodup : rows.Nodup) (hi : i ∉ rows) :
    ∀ (s : Progress α m n) (q : Fin m) (j : Fin n),
      (rows.foldl f s).working q j =
        if q ∈ rows then rule (s.working i) (s.working q) j else s.working q j := by
  induction rows with
  | nil =>
      intro s q j
      simp
  | cons r rest ih =>
      intro s q j
      obtain ⟨hr, hrest⟩ := List.nodup_cons.mp hnodup
      have hir : i ≠ r := List.ne_of_not_mem_cons hi
      have hirest : i ∉ rest := List.not_mem_of_not_mem_cons hi
      have hother : ∀ p : Fin m, p ≠ r → (f s r).working p = s.working p :=
        fun p hp => funext fun k => by rw [hf, if_neg hp]
      rw [List.foldl_cons, ih hrest hirest, hother i hir]
      by_cases hq : q ∈ rest
      · -- `q` comes later, and rewriting `r` has changed neither `q` nor the pivot row
        have hqr : q ≠ r := fun h => hr (h ▸ hq)
        rw [if_pos hq, if_pos (List.mem_cons_of_mem _ hq), hother q hqr]
      · rw [if_neg hq, hf]
        by_cases hqr : q = r
        · subst hqr
          rw [if_pos rfl, if_pos List.mem_cons_self]
        · rw [if_neg hqr, if_neg (List.not_mem_cons_of_ne_of_not_mem hqr hq)]

variable [Scalar α]

@[simp] theorem normalize_swaps (d : Diagonal m n) (s : Progress α m n) :
    (s.normalize d).swaps = s.swaps := rfl

@[simp] theorem normalize_pivots (d : Diagonal m n) (s : Progress α m n) :
    (s.normalize d).pivots = s.pivots := rfl

theorem normalize_working (d : Diagonal m n) (s : Progress α m n) :
    (s.normalize d).working =
      s.working.divideRow d.row d.index (s.working d.row d.column) := rfl

theorem clearRow_working (d : Diagonal m n) (s : Progress α m n) (r : Fin m) :
    (clearRow d s r).working =
      s.working.subtractRow d.row r d.index (s.working r d.column) := rfl

theorem clearBelowRow_working (d : Diagonal m n) (pivot : α) (s : Progress α m n) (r : Fin m) :
    (clearBelowRow d pivot s r).working =
      if Scalar.isZero (s.working r d.column / pivot) then s.working
      else s.working.subtractRow d.row r d.index (s.working r d.column / pivot) := by
  simp only [clearBelowRow]
  split <;> rfl

/-- How clearing above and below rewrites a row: it subtracts its entry in the pivot column times
the pivot row. -/
theorem clearRow_rewritesRow (d : Diagonal m n) :
    RewritesRow (α := α) d.row
      (fun pivotRow row j =>
        if d.index ≤ j then row j - row d.column * pivotRow j else row j) (clearRow d) := by
  intro s r q j
  rw [clearRow_working, Tableau.subtractRow_apply]
  by_cases hq : q = r
  · subst hq
    simp
  · simp [hq]

/-- How clearing below rewrites a row: it subtracts the pivot row times the factor, unless the
factor is zero. -/
theorem clearBelowRow_rewritesRow (d : Diagonal m n) (pivot : α) :
    RewritesRow d.row
      (fun pivotRow row j =>
        if Scalar.isZero (row d.column / pivot) = false ∧ d.index ≤ j then
          row j - row d.column / pivot * pivotRow j
        else row j) (clearBelowRow d pivot) := by
  intro s r q j
  rw [clearBelowRow_working]
  by_cases hzero : Scalar.isZero (s.working r d.column / pivot) = true
  · by_cases hq : q = r
    · subst hq
      simp [hzero]
    · simp [hq, hzero]
  · rw [if_neg hzero, Tableau.subtractRow_apply]
    by_cases hq : q = r
    · subst hq
      simp [hzero]
    · simp [hq]

/-- **Clearing a column above and below**: the pivot row is divided by its pivot, and every other
row loses its entry in the pivot column times the divided pivot row. -/
theorem clearColumn_working (d : Diagonal m n) (s : Progress α m n) (q : Fin m) (j : Fin n) :
    (s.clearColumn d).working q j =
      if d.index ≤ j then
        if q = d.row then s.working q j / s.working d.row d.column
        else s.working q j -
          s.working q d.column * (s.working d.row j / s.working d.row d.column)
      else s.working q j := by
  rw [clearColumn, (clearRow_rewritesRow d).foldl (rowsBesides_nodup _) (not_mem_rowsBesides _),
    normalize_working]
  by_cases hj : d.index ≤ j <;> by_cases hq : q = d.row <;>
    simp [Tableau.divideRow_apply, hj, hq]

/-- **Clearing a column below**: every row under the pivot row whose factor is not zero loses the
factor times the pivot row. -/
theorem clearBelow_working (d : Diagonal m n) (s : Progress α m n) (q : Fin m) (j : Fin n) :
    (s.clearBelow d).working q j =
      if d.row < q ∧ Scalar.isZero (s.working q d.column / s.working d.row d.column) = false ∧
          d.index ≤ j then
        s.working q j - s.working q d.column / s.working d.row d.column * s.working d.row j
      else s.working q j := by
  rw [clearBelow, (clearBelowRow_rewritesRow d _).foldl (rowsBelow_nodup _) (not_mem_rowsBelow _)]
  by_cases hq : d.row < q <;> simp [hq]

/-- The rows down to the pivot row are not touched by the clearing below it. -/
theorem clearBelow_working_above {d : Diagonal m n} {s : Progress α m n} {r : Fin m}
    (hr : r ≤ d.row) (j : Fin n) : (s.clearBelow d).working r j = s.working r j := by
  rw [clearBelow_working, if_neg (fun h => Nat.not_lt.mpr hr h.1)]

theorem clearBelowRow_swaps (d : Diagonal m n) (pivot : α) (s : Progress α m n) (r : Fin m) :
    (clearBelowRow d pivot s r).swaps = s.swaps := by
  simp only [clearBelowRow]
  split <;> rfl

theorem clearBelowRow_pivots (d : Diagonal m n) (pivot : α) (s : Progress α m n) (r : Fin m) :
    (clearBelowRow d pivot s r).pivots = s.pivots := by
  simp only [clearBelowRow]
  split <;> rfl

@[simp] theorem clearColumn_swaps (d : Diagonal m n) (s : Progress α m n) :
    (s.clearColumn d).swaps = s.swaps :=
  foldl_frame Progress.swaps (f := clearRow d) (fun _ _ => rfl) _ _

@[simp] theorem clearColumn_pivots (d : Diagonal m n) (s : Progress α m n) :
    (s.clearColumn d).pivots = s.pivots :=
  foldl_frame Progress.pivots (f := clearRow d) (fun _ _ => rfl) _ _

@[simp] theorem clearBelow_swaps (d : Diagonal m n) (s : Progress α m n) :
    (s.clearBelow d).swaps = s.swaps :=
  foldl_frame Progress.swaps (clearBelowRow_swaps d _) _ _

@[simp] theorem clearBelow_pivots (d : Diagonal m n) (s : Progress α m n) :
    (s.clearBelow d).pivots = s.pivots :=
  foldl_frame Progress.pivots (clearBelowRow_pivots d _) _ _

end Progress

/-! ## How the reductions end -/

namespace Tableau

variable [Scalar α] {tolerance : α} {log : Log α}

/-- The sweep of a square tableau goes through all its columns. -/
theorem triangularSweep_square (A : Tableau α n n) (tolerance : α) (log : Log α) :
    A.triangularSweep tolerance log =
      Sweep.run Progress.clearBelow tolerance (.start A log) n (le_refl n) (le_refl n) := by
  simp only [triangularSweep, Nat.min_self]

/-- Without a singular column the sweep was complete. -/
theorem triangulate_of_none {M : Tableau α m n}
    (h : (M.triangulate tolerance log).singularColumn = none) :
    ∃ s, M.triangularSweep tolerance log = .complete s ∧
      M.triangulate tolerance log = s.triangulation := by
  rw [triangulate] at h ⊢
  cases hsweep : M.triangularSweep tolerance log with
  | complete s => exact ⟨s, rfl, rfl⟩
  | stalled c v s =>
      rw [hsweep] at h
      exact nomatch h

/-- With a singular column the sweep stalled there. -/
theorem triangulate_of_some {M : Tableau α m n} {c : Nat}
    (h : (M.triangulate tolerance log).singularColumn = some c) :
    ∃ v s, M.triangularSweep tolerance log = .stalled c v s ∧
      M.triangulate tolerance log = s.singularTriangulation tolerance c v := by
  rw [triangulate] at h ⊢
  cases hsweep : M.triangularSweep tolerance log with
  | complete s =>
      rw [hsweep] at h
      exact nomatch h
  | stalled b v s =>
      rw [hsweep] at h
      cases h
      exact ⟨v, s, rfl, rfl⟩

/-- With a singular column the value is zero. -/
theorem triangulate_value_singular {M : Tableau α m n} {c : Nat}
    (h : (M.triangulate tolerance log).singularColumn = some c) :
    (M.triangulate tolerance log).value = 0 := by
  obtain ⟨v, s, _, hs⟩ := triangulate_of_some h
  rw [hs]
  rfl

/-- A reduction with an answer had a complete sweep. -/
theorem gaussJordan_of_ok {A : Tableau α n n} {b : Vector α n} {r : Reduction α n}
    (h : A.gaussJordan b tolerance log = .ok r) :
    ∃ s, A.gaussJordanSweep b tolerance log = .complete s ∧ r = s.reduction := by
  rw [gaussJordan] at h
  cases hsweep : A.gaussJordanSweep b tolerance log with
  | complete s =>
      rw [hsweep] at h
      cases h
      exact ⟨s, rfl, rfl⟩
  | stalled c v s =>
      rw [hsweep] at h
      exact nomatch h

/-- The solution of a reduction is the last column of its reduced tableau. -/
theorem gaussJordan_solution_eq {A : Tableau α n n} {b : Vector α n} {r : Reduction α n}
    (h : A.gaussJordan b tolerance log = .ok r) : r.solution = r.reduced.column (Fin.last n) := by
  obtain ⟨s, _, rfl⟩ := gaussJordan_of_ok h
  rfl

/-- A reduction that broke down refused a candidate below the tolerance. -/
theorem gaussJordan_of_error {A : Tableau α n n} {b : Vector α n} {f : Breakdown α}
    (h : A.gaussJordan b tolerance log = .error f) :
    ∃ (d : Diagonal n (n + 1)) (s : Progress α n (n + 1)), f.column = d.index ∧
      f.candidate = s.candidate d ∧ Scalar.lt f.candidate tolerance = true := by
  rw [gaussJordan] at h
  cases hsweep : A.gaussJordanSweep b tolerance log with
  | complete s =>
      rw [hsweep] at h
      exact nomatch h
  | stalled c v s =>
      rw [hsweep] at h
      cases h
      obtain ⟨d, hc, rfl, hlt, _⟩ := Sweep.run_stalled _ _ _ hsweep
      exact ⟨d, s, hc, rfl, hlt⟩

/-- A reduction breaks down where its sweep stalls. -/
theorem gaussJordan_error_iff {A : Tableau α n n} {b : Vector α n} {c : Nat} {v : α} :
    (∃ f, A.gaussJordan b tolerance log = .error f ∧ f.column = c ∧ f.candidate = v) ↔
      ∃ s, A.gaussJordanSweep b tolerance log = .stalled c v s := by
  rw [gaussJordan]
  cases A.gaussJordanSweep b tolerance log with
  | complete s =>
      exact iff_of_false (fun ⟨_, h, _⟩ => nomatch h) (fun ⟨_, h⟩ => nomatch h)
  | stalled d w s =>
      constructor
      · rintro ⟨f, hf, rfl, rfl⟩
        cases hf
        exact ⟨s, rfl⟩
      · rintro ⟨t, ht⟩
        cases ht
        exact ⟨_, rfl, rfl, rfl⟩

end Tableau

end RowReduction
