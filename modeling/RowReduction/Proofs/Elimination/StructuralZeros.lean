import Mathlib
import RowReduction.Proofs.Binary64.Exactness
import RowReduction.Proofs.Elimination.Recording
import RowReduction.Proofs.Elimination.RemainingRows
import RowReduction.Proofs.Elimination.RightHandSide

/-!
Zero rows, zero columns and equal rows of a square tableau, with rounding. As long as no entry leaves
the range, both clearing rules keep zeros where they are, so a sweep never passes a zero column and
never chooses a zero row. Clearing below keeps two equal rows equal until one of them is the pivot
row; the factor of the other one is exactly one then, and what is left of it is a zero row.
-/
namespace RowReduction

variable {m n : Nat}

namespace Tableau

/-- Two of the rows are equal, number by number. -/
def HasEqualRows (A : Tableau Binary64 n n) : Prop :=
  ∃ p q, p ≠ q ∧ ∀ j, (A p j).eq (A q j) = true

def HasZeroRow (A : Tableau Binary64 n n) : Prop := ∃ i, ∀ j, (A i j).isZero = true

def IsZeroColumn (A : Tableau Binary64 n n) (j : Fin n) : Prop := ∀ i, (A i j).isZero = true

instance (A : Tableau Binary64 n n) : Decidable A.HasEqualRows :=
  inferInstanceAs (Decidable (∃ p q, p ≠ q ∧ ∀ j, (A p j).eq (A q j) = true))

instance (A : Tableau Binary64 n n) : Decidable A.HasZeroRow :=
  inferInstanceAs (Decidable (∃ i, ∀ j, (A i j).isZero = true))

instance (A : Tableau Binary64 n n) (j : Fin n) : Decidable (A.IsZeroColumn j) :=
  inferInstanceAs (Decidable (∀ i, (A i j).isZero = true))

/-- No entry overflows: every tableau that a sweep comes to, the first one included, is finite. -/
def StaysFinite (clear : Diagonal m n → Progress Binary64 m n → Progress Binary64 m n)
    (tolerance : Binary64) (M : Tableau Binary64 m n) : Prop :=
  ∀ (k : Fin (m + 1)) (hn : k ≤ n),
    (Sweep.run clear tolerance (.start M .off) k k.is_le hn).WhenComplete
      fun t => ∀ i j, (t.working i j).isFinite = true

instance (clear : Diagonal m n → Progress Binary64 m n → Progress Binary64 m n)
    (tolerance : Binary64) (M : Tableau Binary64 m n) : Decidable (M.StaysFinite clear tolerance) :=
  inferInstanceAs (Decidable (∀ (k : Fin (m + 1)) (hn : k ≤ n),
    (Sweep.run clear tolerance (.start M .off) k k.is_le hn).WhenComplete
      fun t => ∀ i j, (t.working i j).isFinite = true))

theorem StaysFinite.reached {clear : Diagonal m n → Progress Binary64 m n → Progress Binary64 m n}
    {tolerance : Binary64} {M : Tableau Binary64 m n} (h : M.StaysFinite clear tolerance) {k : Nat}
    {hm : k ≤ m} {hn : k ≤ n} {t : Progress Binary64 m n}
    (hrun : Sweep.run clear tolerance (.start M .off) k hm hn = .complete t) (i : Fin m)
    (j : Fin n) : (t.working i j).isFinite = true := by
  have hk := h ⟨k, Nat.lt_succ_of_le hm⟩ hn
  rw [hrun] at hk
  exact hk i j

end Tableau

/-- The entries of a row from column `k` on are zeros. -/
def ZeroFrom (k : Nat) (row : Fin n → Binary64) : Prop :=
  ∀ j : Fin n, k ≤ j → (row j).isZero = true

theorem ZeroFrom.mono {k l : Nat} {row : Fin n → Binary64} (h : ZeroFrom k row) (hkl : k ≤ l) :
    ZeroFrom l row :=
  fun j hj => h j (hkl.trans hj)

/-! ## Single rows -/

section Rows

variable {d : Diagonal n n} {w row : Fin n → Binary64}

/-- Clearing below leaves a zero row alone, since its factor is zero. -/
theorem ZeroFrom.clearedBelowRow (h : ZeroFrom d.index row) (hfinite : (w d.column).isFinite = true)
    (hzero : (w d.column).isZero = false) :
    ZeroFrom d.index (Progress.clearedBelowRow d w row) := by
  have hfactor : Scalar.isZero (row d.column / w d.column) = true :=
    Binary64.isZero_div (h d.column (le_refl _)) (Binary64.isNaN_of_isFinite hfinite) hzero
  intro j hj
  rw [Progress.clearedBelowRow,
    if_neg (fun hcond => Bool.false_ne_true (hcond.1.symm.trans hfactor))]
  exact h j hj

/-- Clearing above and below subtracts zeros from a zero row. -/
theorem ZeroFrom.clearedRow (h : ZeroFrom d.index row)
    (hfinite : ∀ j : Fin n, d.index ≤ j → (w j / w d.column).isFinite = true) :
    ZeroFrom d.index (Progress.clearedRow d w row) := by
  intro j hj
  rw [Progress.clearedRow, if_pos hj]
  exact Binary64.isZero_sub (h j hj)
    (Binary64.isZero_mul_of_left (h d.column (le_refl _)) (hfinite j hj))

/-- **A row equal to the pivot row cancels**: its factor is one. -/
theorem zeroFrom_clearedBelowRow (hfinite : ∀ j, (w j).isFinite = true)
    (hzero : (w d.column).isZero = false) (hsame : ∀ j, (w j).SameNumber (row j)) :
    ZeroFrom d.index (Progress.clearedBelowRow d w row) := by
  have hpivot : row d.column = w d.column := by
    rcases hsame d.column with heq | ⟨hw, _⟩
    · exact heq.symm
    · exact nomatch hzero.symm.trans hw
  have hfactor : row d.column / w d.column = .one := by
    rw [hpivot]
    exact Binary64.div_self_eq_one (hfinite _) hzero
  intro j hj
  rw [Progress.clearedBelowRow, hfactor, if_pos ⟨rfl, hj⟩, Binary64.one_mul_eq_self (hfinite j)]
  have hrow : (row j - w j).SameNumber (w j - w j) := (hsame j).symm.sub (.refl _)
  exact hrow.symm.isZero_right ((Binary64.SameNumber.refl _).isZero_sub (hfinite j))

/-- Equal rows are rewritten to equal rows. -/
theorem clearedBelowRow_sameNumber {row' : Fin n → Binary64}
    (hsame : ∀ j, (row j).SameNumber (row' j)) (j : Fin n) :
    (Progress.clearedBelowRow d w row j).SameNumber (Progress.clearedBelowRow d w row' j) := by
  have hfactor := (hsame d.column).div (w d.column)
  have hskipped : Scalar.isZero (row d.column / w d.column) =
      Scalar.isZero (row' d.column / w d.column) := hfactor.isZero_eq
  rw [Progress.clearedBelowRow, Progress.clearedBelowRow, hskipped]
  split
  · exact (hsame j).sub (hfactor.mul (w j))
  · exact hsame j

end Rows

/-! ## Whole sweeps -/

namespace Sweep

variable {clear : Diagonal n n → Progress Binary64 n n → Progress Binary64 n n}
  {rule : Diagonal n n → (Fin n → Binary64) → (Fin n → Binary64) → Fin n → Binary64}
  {tolerance : Binary64} {s t u : Progress Binary64 n n} {d : Diagonal n n}

/-- A chosen row has a pivot other than zero. -/
theorem Passes.pivot_isZero (h : Passes clear tolerance s d u)
    (htol : Binary64.zero.lt tolerance = true) :
    (u.working (u.choice d) d.column).isZero = false :=
  Binary64.isZero_eq_false_of_abs_not_lt h.accepted htol

/-- A sweep keeps zeros: what is a zero row from a place on is rewritten to one when that place is
passed, and a zero column stays one. -/
structure KeepsZeros
    (rule : Diagonal n n → (Fin n → Binary64) → (Fin n → Binary64) → Fin n → Binary64)
    (clear : Diagonal n n → Progress Binary64 n n → Progress Binary64 n n) (tolerance : Binary64)
    (s : Progress Binary64 n n) : Prop where
  rewrites : Progress.RewritesBelow rule clear
  rows : ∀ d u, Passes clear tolerance s d u → ∀ row, ZeroFrom d.index row →
    ZeroFrom d.index (rule d (u.working (u.choice d)) row)
  columns : ∀ d u, Passes clear tolerance s d u → ∀ j, (∀ i, (u.working i j).isZero = true) →
    ∀ i, ((clear d (u.pivoted d)).working i j).isZero = true

namespace KeepsZeros

/-- **No zero row is chosen**, so a sweep is not complete when a remaining row is zero from the next
place on. -/
theorem ne_complete_of_zeroFrom (h : KeepsZeros rule clear tolerance s)
    (htol : Binary64.zero.lt tolerance = true) {k : Nat} {hk : k ≤ n}
    (hu : run clear tolerance s k hk hk = complete u) {q : Fin n} (hq : k ≤ q)
    (hrow : ZeroFrom k (u.working q)) (t : Progress Binary64 n n) :
    run clear tolerance s n (le_refl n) (le_refl n) ≠ complete t := by
  intro ht
  obtain ⟨d, v, _, hpasses, hchosen⟩ := exists_chosen h.rewrites (P := fun k row => ZeroFrom k row)
    (fun d v hv r hr => (h.rows d v hv _ hr).mono (Nat.le_succ _)) ht hu hq hrow
  exact nomatch (hpasses.pivot_isZero htol).symm.trans (hchosen d.column (le_refl _))

/-- **No zero column is passed.** -/
theorem not_passes (h : KeepsZeros rule clear tolerance s)
    (htol : Binary64.zero.lt tolerance = true) (d : Diagonal n n)
    (hcolumn : ∀ i, (s.working i d.column).isZero = true) : ¬ Passes clear tolerance s d u := by
  intro hu
  have hzero : ∀ i, (u.working i d.column).isZero = true :=
    run_invariant (I := fun _ t => ∀ i, (t.working i d.column).isZero = true) hcolumn
      (fun e v hv hI => h.columns e v hv d.column hI) _ _ _ hu.reached
  exact nomatch (hu.pivot_isZero htol).symm.trans (hzero _)

/-- A sweep from a tableau with a zero row or a zero column is not complete. -/
theorem ne_complete (h : KeepsZeros rule clear tolerance s)
    (htol : Binary64.zero.lt tolerance = true)
    (hzeros : (∃ i, ∀ j, (s.working i j).isZero = true) ∨
      ∃ j, ∀ i, (s.working i j).isZero = true) (t : Progress Binary64 n n) :
    run clear tolerance s n (le_refl n) (le_refl n) ≠ complete t := by
  rcases hzeros with ⟨i, hi⟩ | ⟨j, hj⟩
  · have hstart : run clear tolerance s 0 (Nat.zero_le n) (Nat.zero_le n) = complete s := rfl
    exact h.ne_complete_of_zeroFrom htol hstart (Nat.zero_le i.val) (fun j _ => hi j) t
  · intro ht
    obtain ⟨u, hu⟩ := exists_passes ht ⟨j, j.isLt, j.isLt⟩ j.isLt
    exact h.not_passes htol ⟨j, j.isLt, j.isLt⟩ hj hu

/-- A sweep that is not complete stalls at a zero column or before. -/
theorem exists_stalled (h : KeepsZeros rule clear tolerance s)
    (htol : Binary64.zero.lt tolerance = true)
    (hincomplete : ∀ t, run clear tolerance s n (le_refl n) (le_refl n) ≠ complete t) :
    ∃ c v t, run clear tolerance s n (le_refl n) (le_refl n) = stalled c v t ∧
      ∀ j : Fin n, (∀ i, (s.working i j).isZero = true) → c ≤ j := by
  obtain ⟨c, v, t, ht⟩ := Sweep.exists_stalled hincomplete
  refine ⟨c, v, t, ht, fun j hj => ?_⟩
  obtain ⟨d, rfl, _, _, hbefore⟩ := run_stalled n _ _ ht
  by_contra hlt
  obtain ⟨u, hu⟩ := exists_passes hbefore ⟨j, j.isLt, j.isLt⟩ (Nat.lt_of_not_le hlt)
  exact h.not_passes htol ⟨j, j.isLt, j.isLt⟩ hj hu

end KeepsZeros

end Sweep

/-! ## The two clearing rules -/

theorem Progress.pivoted_working_forall {α : Type} [Scalar α] {m n : Nat} {P : α → Prop}
    {s : Progress α m n} {j : Fin n} (h : ∀ i, P (s.working i j)) (d : Diagonal m n) (i : Fin m) :
    P ((s.pivoted d).working i j) := by
  rw [pivoted_working, Tableau.swapRows_apply]
  split
  · exact h _
  · split
    · exact h _
    · exact h _

namespace Tableau

variable {A : Tableau Binary64 n n} {tolerance : Binary64}
  {clear : Diagonal n n → Progress Binary64 n n → Progress Binary64 n n} {d : Diagonal n n}
  {t u : Progress Binary64 n n}

namespace StaysFinite

/-- A passed place is finite before it is cleared, and after. -/
theorem before (h : A.StaysFinite clear tolerance)
    (hu : Sweep.Passes clear tolerance (.start A .off) d u) (i j : Fin n) :
    (u.working i j).isFinite = true :=
  h.reached hu.reached i j

theorem after (h : A.StaysFinite clear tolerance)
    (hu : Sweep.Passes clear tolerance (.start A .off) d u) (i j : Fin n) :
    ((clear d (u.pivoted d)).working i j).isFinite = true :=
  h.reached hu.run_succ i j

/-- A zero column is not filled by clearing below: a factor that made a zero into something else
would not be finite. -/
theorem zero_column_clearBelow (h : A.StaysFinite Progress.clearBelow tolerance)
    (hu : Sweep.Passes Progress.clearBelow tolerance (.start A .off) d u) {j : Fin n}
    (hcolumn : ∀ i, (u.working i j).isZero = true) (i : Fin n) :
    ((Progress.clearBelow d (u.pivoted d)).working i j).isZero = true := by
  have hpivoted := Progress.pivoted_working_forall (P := (Binary64.isZero · = true)) hcolumn d
  have hafter := h.after hu i j
  rw [Progress.clearBelow_working] at hafter ⊢
  split at hafter
  · rename_i hcond
    rw [if_pos hcond]
    obtain ⟨hfactor, _⟩ := Binary64.isFinite_of_mul (Binary64.isFinite_of_sub hafter).2
    exact Binary64.isZero_sub (hpivoted i) (Binary64.isZero_mul_of_right hfactor (hpivoted d.row))
  · rename_i hcond
    rw [if_neg hcond]
    exact hpivoted i

/-- A zero column is not filled by clearing above and below. -/
theorem zero_column_clearColumn (h : A.StaysFinite Progress.clearColumn tolerance)
    (htol : Binary64.zero.lt tolerance = true)
    (hu : Sweep.Passes Progress.clearColumn tolerance (.start A .off) d u) {j : Fin n}
    (hcolumn : ∀ i, (u.working i j).isZero = true) (i : Fin n) :
    ((Progress.clearColumn d (u.pivoted d)).working i j).isZero = true := by
  have hpivoted := Progress.pivoted_working_forall (P := (Binary64.isZero · = true)) hcolumn d
  have hfinite := Progress.pivoted_working_forall (P := (Binary64.isFinite · = true))
    (fun r => h.before hu r d.column) d
  have hquotient (r : Fin n) :
      ((u.pivoted d).working r j / (u.pivoted d).working d.row d.column).isZero = true := by
    rw [u.pivoted_working_row d d.column]
    exact Binary64.isZero_div (hpivoted r) (Binary64.isNaN_of_isFinite (h.before hu _ _))
      (hu.pivot_isZero htol)
  rw [Progress.clearColumn_working]
  split
  · split
    · exact hquotient i
    · exact Binary64.isZero_sub (hpivoted i)
        (Binary64.isZero_mul_of_right (hfinite i) (hquotient d.row))
  · exact hpivoted i

/-- The divided pivot row is finite. -/
theorem quotient (h : A.StaysFinite Progress.clearColumn tolerance)
    (hu : Sweep.Passes Progress.clearColumn tolerance (.start A .off) d u) {j : Fin n}
    (hj : d.index ≤ j) :
    (u.working (u.choice d) j / u.working (u.choice d) d.column).isFinite = true := by
  have hafter := h.after hu d.row j
  rwa [Progress.clearColumn_working, if_pos hj, if_pos rfl, u.pivoted_working_row d j,
    u.pivoted_working_row d d.column] at hafter

theorem keepsZeros_clearBelow (h : A.StaysFinite Progress.clearBelow tolerance)
    (htol : Binary64.zero.lt tolerance = true) :
    Sweep.KeepsZeros Progress.clearedBelowRow Progress.clearBelow tolerance (.start A .off) where
  rewrites := Progress.clearBelow_rewritesBelow
  rows := fun _ _ hu _ hrow => hrow.clearedBelowRow (h.before hu _ _) (hu.pivot_isZero htol)
  columns := fun _ _ hu _ hj => h.zero_column_clearBelow hu hj

theorem keepsZeros_clearColumn (h : A.StaysFinite Progress.clearColumn tolerance)
    (htol : Binary64.zero.lt tolerance = true) :
    Sweep.KeepsZeros Progress.clearedRow Progress.clearColumn tolerance (.start A .off) where
  rewrites := Progress.clearColumn_rewritesBelow
  rows := fun _ _ hu _ hrow => hrow.clearedRow fun _ hj => h.quotient hu hj
  columns := fun _ _ hu _ hj => h.zero_column_clearColumn htol hu hj

/-- **Two equal rows**: once one of them is the pivot row, the other one is left as a zero row. -/
theorem ne_complete_of_equal_rows (h : A.StaysFinite Progress.clearBelow tolerance)
    (htol : Binary64.zero.lt tolerance = true) (hequal : A.HasEqualRows)
    (t : Progress Binary64 n n) :
    Sweep.run Progress.clearBelow tolerance (.start A .off) n (le_refl n) (le_refl n) ≠
      .complete t := by
  intro ht
  obtain ⟨p, q, hne, hrows⟩ := hequal
  obtain ⟨d, u, r, hu, hr, hother, hsame⟩ := Sweep.exists_split Progress.clearBelow_rewritesBelow
    (R := fun x y => ∀ j, (x j).SameNumber (y j)) (fun x y hxy j => (hxy j).symm)
    (fun d w x y hxy => clearedBelowRow_sameNumber hxy) ht hne
    (fun j => Binary64.sameNumber_of_eq (hrows j))
  have hzero := zeroFrom_clearedBelowRow (h.before hu _) (hu.pivot_isZero htol) hsame
  rw [← Progress.clearBelow_rewritesBelow.newPlace hr hother] at hzero
  exact (h.keepsZeros_clearBelow htol).ne_complete_of_zeroFrom htol hu.run_succ
    (Progress.lt_newPlace hr hother) (hzero.mono (Nat.le_succ _)) t ht

end StaysFinite

/-- **Triangular reduction stalls** when there is a zero row, a zero column or two equal rows, and at
a zero column at the latest. -/
theorem triangulate_singularColumn_of_zeros (htol : Binary64.zero.lt tolerance = true)
    (hfinite : A.StaysFinite Progress.clearBelow tolerance)
    (h : A.HasEqualRows ∨ A.HasZeroRow ∨ ∃ j, A.IsZeroColumn j) :
    ∃ c, (∀ log, (A.triangulate tolerance log).singularColumn = some c) ∧
      ∀ j, A.IsZeroColumn j → c ≤ j := by
  have hzeros := hfinite.keepsZeros_clearBelow htol
  have hincomplete (t) : Sweep.run Progress.clearBelow tolerance (.start A .off) n (le_refl n)
      (le_refl n) ≠ .complete t := by
    rcases h with hequal | hzero
    · exact hfinite.ne_complete_of_equal_rows htol hequal t
    · exact hzeros.ne_complete htol hzero t
  obtain ⟨c, v, t, ht, hc⟩ := hzeros.exists_stalled htol hincomplete
  refine ⟨c, fun log => ?_, hc⟩
  rw [← A.triangularSweep_square] at ht
  rw [triangulate_singularColumn_unlogged, triangulate, ht]
  rfl

/-- A Gauss-Jordan reduction breaks down where the sweep over the matrix alone stalls, whatever the
right-hand side and the log are. -/
theorem gaussJordan_error_of_stalled {c : Nat} {v : Binary64}
    (h : Sweep.run Progress.clearColumn tolerance (.start A .off) n (le_refl n) (le_refl n) =
      .stalled c v t) (b : Vector Binary64 n) (log : Log Binary64) :
    ∃ f, A.gaussJordan b tolerance log = .error f ∧ f.column = c := by
  have hsweep : ∃ s, A.gaussJordanSweep b tolerance .off = .stalled c v s :=
    ((A.gaussJordanSweep_matrixPart b tolerance .off).stalled_iff c v).mpr ⟨t, h⟩
  obtain ⟨f, hf, hc, _⟩ := gaussJordan_error_iff.mpr hsweep
  rw [A.gaussJordan_unlogged b tolerance log] at hf
  cases hend : A.gaussJordan b tolerance log with
  | ok r =>
      rw [hend] at hf
      exact nomatch hf
  | error g =>
      rw [hend] at hf
      cases hf
      exact ⟨g, rfl, hc⟩

/-- **Gauss-Jordan reduction breaks down** when there is a zero row or a zero column, whatever the
right-hand side is, and at a zero column at the latest. -/
theorem gaussJordan_error_of_zeros (htol : Binary64.zero.lt tolerance = true)
    (hfinite : A.StaysFinite Progress.clearColumn tolerance)
    (h : A.HasZeroRow ∨ ∃ j, A.IsZeroColumn j) (b : Vector Binary64 n) (log : Log Binary64) :
    ∃ f, A.gaussJordan b tolerance log = .error f ∧ ∀ j, A.IsZeroColumn j → f.column ≤ j := by
  have hzeros := hfinite.keepsZeros_clearColumn htol
  obtain ⟨c, v, t, ht, hc⟩ := hzeros.exists_stalled htol (hzeros.ne_complete htol h)
  obtain ⟨f, hf, rfl⟩ := gaussJordan_error_of_stalled ht b log
  exact ⟨f, hf, hc⟩

end Tableau

end RowReduction
