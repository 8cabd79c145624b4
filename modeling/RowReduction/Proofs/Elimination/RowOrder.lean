import Mathlib
import RowReduction.Proofs.Binary64.Order
import RowReduction.Proofs.Elimination.Clearing
import RowReduction.Proofs.Elimination.Recording
import RowReduction.Proofs.Elimination.SideBySide

/-!
The order of the equations. Two reductions that start from the same rows in a different order have
settled the same rows at the top after any number of places, and below hold the same rows in some
order, as long as every pivot is the only candidate of its magnitude. The clearing rules do not care
about the order below the pivot, and each exchange changes the sign of the order that is left, so at
the end only the number of exchanges can tell the two reductions apart, by its parity.
-/
namespace RowReduction

open Equiv (Perm swap)

variable {α : Type} {m n : Nat}

namespace Tableau

/-- The rows in another order: row `i` is row `σ i` of `M`. -/
def permuteRows (M : Tableau α m n) (σ : Perm (Fin m)) : Tableau α m n := ofFn fun i j => M (σ i) j

/-- The entries of a right-hand side in another order. -/
def permuteEntries (b : Vector α m) (σ : Perm (Fin m)) : Vector α m := Vector.ofFn fun i => b[σ i]

@[simp] theorem permuteRows_apply (M : Tableau α m n) (σ : Perm (Fin m)) (i : Fin m) (j : Fin n) :
    M.permuteRows σ i j = M (σ i) j := ofFn_apply _ i j

theorem permuteRows_one (M : Tableau α m n) : M.permuteRows 1 = M := by
  ext i j
  rw [permuteRows_apply, Perm.one_apply]

theorem permuteRows_permuteRows (M : Tableau α m n) (σ τ : Perm (Fin m)) :
    (M.permuteRows σ).permuteRows τ = M.permuteRows (σ * τ) := by
  ext i j
  rw [permuteRows_apply, permuteRows_apply, permuteRows_apply, Perm.mul_apply]

theorem swapRows_eq_permuteRows (M : Tableau α m n) (i p : Fin m) :
    M.swapRows i p = M.permuteRows (swap i p) := by
  ext r j
  rw [swapRows_apply, permuteRows_apply, Equiv.swap_apply_def]
  split
  · rfl
  · split <;> rfl

/-- A system with its equations in another order. -/
theorem augment_permuteRows (A : Tableau α n n) (b : Vector α n) (σ : Perm (Fin n)) :
    (A.permuteRows σ).augment (permuteEntries b σ) = (A.augment b).permuteRows σ := by
  ext i j
  rw [permuteRows_apply, augment_apply, augment_apply]
  split
  · rw [permuteRows_apply]
  · simp [permuteEntries]

end Tableau

/-- A permutation that fixes the first `k` rows keeps the others among themselves. -/
theorem le_apply_iff_of_fixes {τ : Perm (Fin m)} {k : Nat} (h : ∀ r : Fin m, r.val < k → τ r = r)
    (r : Fin m) : k ≤ (τ r).val ↔ k ≤ r.val := by
  constructor
  · intro hr
    by_contra hlt
    rw [h r (by omega)] at hr
    exact hlt hr
  · intro hr
    by_contra hlt
    -- a row above that is reached from `r` is fixed, so it is `r`
    have hfixed : τ r = r := τ.injective (h (τ r) (by omega))
    rw [hfixed] at hlt
    exact hlt hr

namespace Progress

/-- The two sweeps hold the same rows, and those of the first `k` places in the same order: row `r`
of the second is row `τ r` of the first. -/
structure RearrangedBy (τ : Perm (Fin m)) (k : Nat) (s t : Progress α m n) : Prop where
  fixes : ∀ r : Fin m, r.val < k → τ r = r
  working : t.working = s.working.permuteRows τ
  pivots : t.pivots = s.pivots

/-- **The invariant of two sweeps** over the same rows, which started in the order `σ`: after `k`
places the order that is left, with a sign for every exchange of either sweep, has the sign of
`σ`. -/
def Rearranged (σ : Perm (Fin m)) (k : Nat) (s t : Progress α m n) : Prop :=
  ∃ τ, RearrangedBy τ k s t ∧
    Perm.sign τ * ((-1) ^ s.swaps * (-1) ^ t.swaps) = Perm.sign σ

/-- A clearing rule treats the rows below the pivot alike, wherever they stand. -/
structure IgnoresOrder (clear : Diagonal m n → Progress α m n → Progress α m n) : Prop where
  working : ∀ (d : Diagonal m n) (s t : Progress α m n) (τ : Perm (Fin m)),
    (∀ r : Fin m, r.val < d.index + 1 → τ r = r) →
    t.working = s.working.permuteRows τ →
    (clear d t).working = (clear d s).working.permuteRows τ
  swaps : ∀ d s, (clear d s).swaps = s.swaps
  pivots : ∀ d s, (clear d s).pivots = s.pivots

theorem Rearranged.start (M : Tableau α m n) (σ : Perm (Fin m)) (log log' : Log α) :
    Rearranged σ 0 (.start M log) (.start (M.permuteRows σ) log') := by
  refine ⟨σ, ⟨fun r hr => absurd hr (Nat.not_lt_zero _), rfl, rfl⟩, ?_⟩
  simp [Progress.start]

/-- When every place is settled, the two sweeps hold the same rows in the same order. -/
theorem Rearranged.all_settled {σ : Perm (Fin m)} {s t : Progress α m n}
    (h : Rearranged σ m s t) :
    t.working = s.working ∧ t.pivots = s.pivots ∧
      (-1) ^ s.swaps * (-1) ^ t.swaps = Perm.sign σ := by
  obtain ⟨τ, hτ, hsign⟩ := h
  have hone : τ = 1 := Equiv.ext fun r => hτ.fixes r r.isLt
  refine ⟨?_, hτ.pivots, ?_⟩
  · rw [hτ.working, hone, Tableau.permuteRows_one]
  · rw [← hsign, hone, Perm.sign_one, one_mul]

/-- The parities of two numbers of exchanges differ when the order is odd. -/
theorem swaps_parity {σ : Perm (Fin m)} {a b : Nat}
    (h : (-1) ^ a * (-1) ^ b = Perm.sign σ) : b % 2 ≠ a % 2 ↔ Perm.sign σ = -1 := by
  rw [← h, ← pow_add, neg_one_pow_eq_neg_one_iff_odd (by decide), Nat.odd_iff]
  omega

variable [Scalar α]

/-- Bringing up a pivot row multiplies the sign of the exchanges by that of the exchange. -/
theorem neg_one_pow_pivoted_swaps (s : Progress α m n) (d : Diagonal m n) :
    (-1 : ℤˣ) ^ (s.pivoted d).swaps = (-1) ^ s.swaps * Perm.sign (swap d.row (s.choice d)) := by
  rw [pivoted_swaps, Perm.sign_swap']
  by_cases h : s.choice d = d.row
  · rw [if_pos h, if_pos h.symm, mul_one]
  · rw [if_neg h, if_neg (Ne.symm h), pow_succ]

/-- **Bringing up corresponding pivot rows** settles one more place. -/
theorem RearrangedBy.pivoted {τ : Perm (Fin m)} {d : Diagonal m n} {s t : Progress α m n}
    (h : RearrangedBy τ d.index s t) (hchoice : τ (t.choice d) = s.choice d) :
    RearrangedBy (swap d.row (s.choice d) * τ * swap d.row (t.choice d)) (d.index + 1)
      (s.pivoted d) (t.pivoted d) := by
  have hworking : (t.pivoted d).working = (s.pivoted d).working.permuteRows
      (swap d.row (s.choice d) * τ * swap d.row (t.choice d)) := by
    rw [pivoted_working, pivoted_working, h.working, Tableau.swapRows_eq_permuteRows,
      Tableau.swapRows_eq_permuteRows, Tableau.permuteRows_permuteRows,
      Tableau.permuteRows_permuteRows, mul_assoc, Equiv.swap_mul_self_mul]
  have hfixes (r : Fin m) (hr : r.val < d.index + 1) :
      (swap d.row (s.choice d) * τ * swap d.row (t.choice d)) r = r := by
    rw [Perm.mul_apply, Perm.mul_apply]
    by_cases hrow : r = d.row
    · rw [hrow, Equiv.swap_apply_left, hchoice, Equiv.swap_apply_right]
    · -- a row above is fixed by the order that was left and moved by neither exchange
      have hval : r.val ≠ d.index := fun e => hrow (Fin.ext e)
      have hs : d.index ≤ (s.choice d).val := s.le_choice d
      have ht : d.index ≤ (t.choice d).val := t.le_choice d
      have hrs : r ≠ s.choice d := fun e => by rw [e] at hr hval; omega
      have hrt : r ≠ t.choice d := fun e => by rw [e] at hr hval; omega
      rw [Equiv.swap_apply_of_ne_of_ne hrow hrt, h.fixes r (by omega),
        Equiv.swap_apply_of_ne_of_ne hrow hrs]
  refine ⟨hfixes, hworking, ?_⟩
  rw [pivoted_pivots, pivoted_pivots, h.pivots, hworking, Tableau.permuteRows_apply,
    hfixes d.row (Nat.lt_succ_self _)]

/-- **One place preserves the invariant** when both sweeps choose the same row. -/
theorem Rearranged.step {clear : Diagonal m n → Progress α m n → Progress α m n}
    (hclear : IgnoresOrder clear) {σ τ : Perm (Fin m)} {d : Diagonal m n} {s t : Progress α m n}
    (h : RearrangedBy τ d.index s t) (hchoice : τ (t.choice d) = s.choice d)
    (hsign : Perm.sign τ * ((-1) ^ s.swaps * (-1) ^ t.swaps) = Perm.sign σ) :
    Rearranged σ (d.index + 1) (clear d (s.pivoted d)) (clear d (t.pivoted d)) := by
  have hpivoted := h.pivoted hchoice
  refine ⟨_, ⟨hpivoted.fixes, ?_, ?_⟩, ?_⟩
  · exact hclear.working d _ _ _ hpivoted.fixes hpivoted.working
  · rw [hclear.pivots, hclear.pivots, hpivoted.pivots]
  · rw [hclear.swaps, hclear.swaps, neg_one_pow_pivoted_swaps, neg_one_pow_pivoted_swaps,
      Perm.sign_mul, Perm.sign_mul, ← hsign]
    -- the sign of each exchange occurs twice
    generalize Perm.sign (swap d.row (s.choice d)) = x
    generalize Perm.sign (swap d.row (t.choice d)) = y
    have hx := Int.units_mul_self x
    have hy := Int.units_mul_self y
    calc x * Perm.sign τ * y * ((-1) ^ s.swaps * x * ((-1) ^ t.swaps * y))
        = Perm.sign τ * ((-1) ^ s.swaps * (-1) ^ t.swaps) * (x * x) * (y * y) := by
          simp only [mul_assoc, mul_comm, mul_left_comm]
      _ = Perm.sign τ * ((-1) ^ s.swaps * (-1) ^ t.swaps) := by rw [hx, hy, mul_one, mul_one]

theorem clearColumn_ignoresOrder : IgnoresOrder (α := α) (m := m) (n := n) clearColumn where
  working := by
    intro d s t τ hτ hworking
    have hrow : τ d.row = d.row := hτ d.row (Nat.lt_succ_self _)
    ext r j
    have hr : τ r = d.row ↔ r = d.row := by rw [← hrow, τ.injective.eq_iff, hrow]
    rw [Tableau.permuteRows_apply, clearColumn_working, clearColumn_working, hworking]
    simp only [Tableau.permuteRows_apply, hrow, hr]
  swaps := clearColumn_swaps
  pivots := clearColumn_pivots

theorem clearBelow_ignoresOrder : IgnoresOrder (α := α) (m := m) (n := n) clearBelow where
  working := by
    intro d s t τ hτ hworking
    have hrow : τ d.row = d.row := hτ d.row (Nat.lt_succ_self _)
    ext r j
    have hr : d.row < τ r ↔ d.row < r := le_apply_iff_of_fixes hτ r
    rw [Tableau.permuteRows_apply, clearBelow_working, clearBelow_working, hworking]
    simp only [Tableau.permuteRows_apply, hrow, hr]
  swaps := clearBelow_swaps
  pivots := clearBelow_pivots

end Progress

/-! ## Pivots that stand alone -/

namespace Progress

/-- At a place, the row that is chosen is the only candidate with the largest magnitude. -/
def SolePivot [Scalar α] (s : Progress α m n) (d : Diagonal m n) : Prop :=
  ∀ r, d.row ≤ r → Scalar.abs (s.working r d.column) = s.candidate d → r = s.choice d

instance [Scalar α] [DecidableEq α] (s : Progress α m n) (d : Diagonal m n) :
    Decidable (s.SolePivot d) :=
  inferInstanceAs (Decidable (∀ r, d.row ≤ r →
    Scalar.abs (s.working r d.column) = s.candidate d → r = s.choice d))

variable {τ : Perm (Fin m)} {d : Diagonal m n} {s t : Progress Binary64 m n}

/-- Both sweeps choose rows of the same magnitude: neither outranks the other, for each row is a
candidate in both. -/
theorem RearrangedBy.abs_choice (h : RearrangedBy τ d.index s t) :
    Scalar.abs (s.working (τ (t.choice d)) d.column) = s.candidate d := by
  have ht : d.row ≤ τ (t.choice d) := (le_apply_iff_of_fixes h.fixes _).mpr (t.le_choice d)
  have hs : d.row ≤ τ.symm (s.choice d) := by
    apply (le_apply_iff_of_fixes h.fixes _).mp
    rw [τ.apply_symm_apply]
    exact s.le_choice d
  have hle := s.working.pivotRow_not_outranked d.row d.column ht
  have hge := t.working.pivotRow_not_outranked d.row d.column hs
  rw [h.working, Tableau.permuteRows_apply, Tableau.permuteRows_apply, τ.apply_symm_apply,
    ← h.working] at hge
  apply Binary64.abs_eq_of_rank_eq
  apply Nat.le_antisymm
  · exact Nat.not_lt.mp ((Binary64.outranks_iff _ _).not.mp (Bool.eq_false_iff.mp hle))
  · exact Nat.not_lt.mp ((Binary64.outranks_iff _ _).not.mp (Bool.eq_false_iff.mp hge))

theorem Rearranged.candidate_eq {σ : Perm (Fin m)} (h : Rearranged σ d.index s t) :
    s.candidate d = t.candidate d := by
  obtain ⟨τ, hτ, _⟩ := h
  rw [← hτ.abs_choice, candidate, hτ.working, Tableau.permuteRows_apply]

end Progress

namespace Sweep

/-- At every place that a sweep does not refuse, a single candidate has the largest magnitude. -/
def SolePivots [Scalar α] (clear : Diagonal m n → Progress α m n → Progress α m n) (tolerance : α)
    (s : Progress α m n) : Prop :=
  ∀ (k : Fin m) (hk : k.val < n),
    (run clear tolerance s k (Nat.le_of_lt k.isLt) (Nat.le_of_lt hk)).WhenComplete fun t =>
      Scalar.lt (t.candidate ⟨k, k.isLt, hk⟩) tolerance = false → t.SolePivot ⟨k, k.isLt, hk⟩

instance [Scalar α] [DecidableEq α] (clear : Diagonal m n → Progress α m n → Progress α m n)
    (tolerance : α) (s : Progress α m n) : Decidable (SolePivots clear tolerance s) :=
  inferInstanceAs (Decidable (∀ (k : Fin m) (hk : k.val < n),
    (run clear tolerance s k (Nat.le_of_lt k.isLt) (Nat.le_of_lt hk)).WhenComplete fun t =>
      Scalar.lt (t.candidate ⟨k, k.isLt, hk⟩) tolerance = false → t.SolePivot ⟨k, k.isLt, hk⟩))

/-- **Sweeps over the same rows in a different order** end alike, when the pivots of one of them
stand alone. -/
theorem run_rearranged {clear : Diagonal m n → Progress Binary64 m n → Progress Binary64 m n}
    (hclear : Progress.IgnoresOrder clear) {tolerance : Binary64} {M : Tableau Binary64 m n}
    {log log' : Log Binary64} (hsole : SolePivots clear tolerance (.start M log))
    (σ : Perm (Fin m)) (k : Nat) (hm : k ≤ m) (hn : k ≤ n) :
    Alike (Progress.Rearranged σ) k (run clear tolerance (.start M log) k hm hn)
      (run clear tolerance (.start (M.permuteRows σ) log') k hm hn) := by
  -- that the first state is reached by its sweep is part of the invariant: its pivots stand alone
  have hreached : Alike
      (fun k s t => (∃ hm hn, run clear tolerance (.start M log) k hm hn = complete s) ∧
        Progress.Rearranged σ k s t) k (run clear tolerance (.start M log) k hm hn)
      (run clear tolerance (.start (M.permuteRows σ) log') k hm hn) := by
    apply run_alike
    · exact ⟨⟨Nat.zero_le _, Nat.zero_le _, rfl⟩, .start M σ log log'⟩
    · rintro k hm hn hn' s t ⟨_, h⟩
      exact h.candidate_eq (d := ⟨k, hm, hn⟩)
    · rintro k hm hn hn' s t ⟨⟨hm', hn'', hrun⟩, τ, hτ, hsign⟩ hlt
      have hpivot := hsole ⟨k, hm⟩ hn
      rw [hrun] at hpivot
      have hchoice : τ (t.choice ⟨k, hm, hn⟩) = s.choice ⟨k, hm, hn⟩ :=
        hpivot hlt _ ((le_apply_iff_of_fixes hτ.fixes _).mpr (t.le_choice ⟨k, hm, hn⟩))
          (hτ.abs_choice (d := ⟨k, hm, hn⟩))
      refine ⟨⟨hm, hn, ?_⟩, Progress.Rearranged.step (d := ⟨k, hm, hn⟩) hclear hτ hchoice hsign⟩
      rw [run, hrun, andThen_complete, Progress.advance_eq, hlt]
      rfl
  exact hreached.mono And.right

end Sweep

/-- How a reduction of a system and a reduction of the system with its equations in the order `σ`
have ended: with the same answer, and numbers of exchanges that differ in parity when `σ` is odd, or
in the same column with the same candidate. -/
def SameEnding (σ : Perm (Fin n)) :
    Except (Breakdown α) (Reduction α n) → Except (Breakdown α) (Reduction α n) → Prop
  | .ok r, .ok r' =>
    r'.solution = r.solution ∧ r'.reduced = r.reduced ∧ r'.pivots = r.pivots ∧
      (r'.swaps % 2 ≠ r.swaps % 2 ↔ Perm.sign σ = -1)
  | .error f, .error f' =>
    f'.column = f.column ∧ f'.candidate = f.candidate ∧ f'.tolerance = f.tolerance
  | _, _ => False

/-- The logs do not matter. -/
theorem SameEnding.of_unlogged {σ : Perm (Fin n)} {x y : Except (Breakdown α) (Reduction α n)}
    (h : SameEnding σ (unloggedEnding x) (unloggedEnding y)) : SameEnding σ x y := by
  cases x with
  | error f =>
      cases y with
      | error f' => exact h
      | ok r' => exact h
  | ok r =>
      cases y with
      | error f' => exact h
      | ok r' => exact h

/-- The same diagonal has the same product, with the opposite sign when the parities of the
exchanges differ. -/
theorem Progress.signedProduct_eq_of_working_eq {s t : Progress Binary64 m n}
    (h : t.working = s.working) :
    t.signedProduct = if t.swaps % 2 ≠ s.swaps % 2 then -s.signedProduct else s.signedProduct := by
  have hneg (x : Binary64) : - -x = x := x.neg_neg
  rw [signedProduct, signedProduct, h]
  rcases Nat.mod_two_eq_zero_or_one s.swaps with hs | hs <;>
    rcases Nat.mod_two_eq_zero_or_one t.swaps with ht | ht <;> simp [hs, ht, hneg]

namespace Tableau

variable {A : Tableau Binary64 n n} {b : Vector Binary64 n} {tolerance : Binary64}

/-- **Gauss-Jordan reduction** ends the same for every order of the equations. -/
theorem gaussJordan_permuteRows
    (hsole : Sweep.SolePivots Progress.clearColumn tolerance (.start (A.augment b) .off))
    (σ : Perm (Fin n)) (log log' : Log Binary64) :
    SameEnding σ (A.gaussJordan b tolerance log)
      ((A.permuteRows σ).gaussJordan (permuteEntries b σ) tolerance log') := by
  apply SameEnding.of_unlogged
  rw [← gaussJordan_unlogged, ← gaussJordan_unlogged]
  have hsweeps : Sweep.Alike (Progress.Rearranged σ) n (A.gaussJordanSweep b tolerance .off)
      ((A.permuteRows σ).gaussJordanSweep (permuteEntries b σ) tolerance .off) := by
    rw [gaussJordanSweep, gaussJordanSweep, augment_permuteRows]
    exact Sweep.run_rearranged Progress.clearColumn_ignoresOrder hsole σ n _ _
  rw [gaussJordan, gaussJordan]
  generalize A.gaussJordanSweep b tolerance .off = x at hsweeps ⊢
  generalize (A.permuteRows σ).gaussJordanSweep (permuteEntries b σ) tolerance .off = y
    at hsweeps ⊢
  cases hsweeps with
  | @complete s t h =>
      obtain ⟨hworking, hpivots, hsign⟩ := h.all_settled
      refine ⟨?_, hworking, hpivots, Progress.swaps_parity hsign⟩
      exact congrArg (column · (Fin.last n)) hworking
  | stalled _ _ => exact ⟨rfl, rfl, rfl⟩

/-- **Triangular reduction** finds the same pivots and the same singular column for every order of
the rows, and the determinant changes its sign with an odd order. -/
theorem triangulate_permuteRows
    (hsole : Sweep.SolePivots Progress.clearBelow tolerance (.start A .off))
    (σ : Perm (Fin n)) (log log' : Log Binary64) :
    let T := A.triangulate tolerance log
    let T' := (A.permuteRows σ).triangulate tolerance log'
    T'.pivots = T.pivots ∧ T'.singularColumn = T.singularColumn ∧
      T'.value = if T.singularColumn = none ∧ Perm.sign σ = -1 then -T.value else T.value := by
  have hsweeps : Sweep.Alike (Progress.Rearranged σ) n (A.triangularSweep tolerance .off)
      ((A.permuteRows σ).triangularSweep tolerance .off) := by
    rw [triangularSweep_square, triangularSweep_square]
    exact Sweep.run_rearranged Progress.clearBelow_ignoresOrder hsole σ n _ _
  have hoff : let T := A.triangulate tolerance .off
      let T' := (A.permuteRows σ).triangulate tolerance .off
      T'.pivots = T.pivots ∧ T'.singularColumn = T.singularColumn ∧
        T'.value = if T.singularColumn = none ∧ Perm.sign σ = -1 then -T.value else T.value := by
    rw [triangulate, triangulate]
    generalize A.triangularSweep tolerance .off = x at hsweeps ⊢
    generalize (A.permuteRows σ).triangularSweep tolerance .off = y at hsweeps ⊢
    cases hsweeps with
    | @complete s t h =>
        obtain ⟨hworking, hpivots, hsign⟩ := h.all_settled
        have hodd : t.swaps % 2 ≠ s.swaps % 2 ↔ none = (none : Option Nat) ∧ Perm.sign σ = -1 :=
          (Progress.swaps_parity hsign).trans (and_iff_right rfl).symm
        refine ⟨hpivots, rfl, ?_⟩
        exact (Progress.signedProduct_eq_of_working_eq hworking).trans (if_congr hodd rfl rfl)
    | stalled _ h =>
        obtain ⟨τ, hτ, _⟩ := h
        exact ⟨hτ.pivots, rfl, (if_neg fun h => Option.some_ne_none _ h.1).symm⟩
  rw [A.triangulate_unlogged tolerance log,
    (A.permuteRows σ).triangulate_unlogged tolerance log'] at hoff
  exact hoff

/-- **The order of the equations does not matter.** When every pivot is the only candidate of its
magnitude, both reductions end the same for every order of the rows, bit for bit: the same solution,
the same reduced tableau, the same pivots, and the same column where they break down. An odd order
changes the parity of the exchanges, and with it the sign of the determinant. -/
theorem reductions_ignore_row_order (A : Tableau Binary64 n n) (b : Vector Binary64 n)
    (tolerance : Binary64) (σ : Perm (Fin n)) (log log' : Log Binary64) :
    (Sweep.SolePivots Progress.clearColumn tolerance (.start (A.augment b) .off) →
      SameEnding σ (A.gaussJordan b tolerance log)
        ((A.permuteRows σ).gaussJordan (permuteEntries b σ) tolerance log')) ∧
    (Sweep.SolePivots Progress.clearBelow tolerance (.start A .off) →
      let T := A.triangulate tolerance log
      let T' := (A.permuteRows σ).triangulate tolerance log'
      T'.pivots = T.pivots ∧ T'.singularColumn = T.singularColumn ∧
        T'.value = if T.singularColumn = none ∧ Perm.sign σ = -1 then -T.value else T.value) :=
  ⟨fun h => gaussJordan_permuteRows h σ log log', fun h => triangulate_permuteRows h σ log log'⟩

/-- Three equations whose pivots stand alone; the middle one has the largest first coefficient. -/
def threeRows : Tableau Binary64 3 3 :=
  ⟨#v[#v[.one, .ofInt 2, .ofInt 4], #v[.ofInt 4, .ofInt 5, .ofInt 6], #v[.ofInt 2, .one, .one]]⟩

/-- The right-hand sides of the three equations. -/
def threeSides : Vector Binary64 3 := #v[.one, .ofInt (-1), .ofInt 7]

theorem reductions_ignore_row_order_three :
    Sweep.SolePivots Progress.clearColumn Binary64.one
        (.start (threeRows.augment threeSides) .off) ∧
      Sweep.SolePivots Progress.clearBelow Binary64.one (.start threeRows .off) ∧
      SameEnding (swap 0 2) (threeRows.gaussJordan threeSides Binary64.one .off)
        ((threeRows.permuteRows (swap 0 2)).gaussJordan (permuteEntries threeSides (swap 0 2))
          Binary64.one .off) ∧
      (threeRows.triangulate Binary64.one .off).singularColumn = none ∧
      ((threeRows.permuteRows (swap 0 2)).triangulate Binary64.one .off).value =
        -(threeRows.triangulate Binary64.one .off).value := by
  have hgauss : Sweep.SolePivots Progress.clearColumn Binary64.one
      (.start (threeRows.augment threeSides) .off) := by decide +kernel
  have htriangular : Sweep.SolePivots Progress.clearBelow Binary64.one (.start threeRows .off) := by
    decide +kernel
  have hcolumn : (threeRows.triangulate Binary64.one .off).singularColumn = none := by
    decide +kernel
  have hodd : Perm.sign (swap (0 : Fin 3) 2) = -1 := Perm.sign_swap (by decide)
  have horder := reductions_ignore_row_order threeRows threeSides Binary64.one (swap 0 2) .off .off
  have hvalue := (horder.2 htriangular).2.2
  rw [if_pos ⟨hcolumn, hodd⟩] at hvalue
  exact ⟨hgauss, htriangular, horder.1 hgauss, hcolumn, hvalue⟩

end Tableau

end RowReduction
