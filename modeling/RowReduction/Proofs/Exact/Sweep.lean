import RowReduction.Exact.Rational
import RowReduction.Proofs.Elimination.Clearing
import RowReduction.Proofs.Elimination.Pivot
import RowReduction.Proofs.Exact.RowEquivalence

/-!
Sweeps over the rationals. With a positive tolerance no accepted pivot is zero, and bringing up a
pivot row and clearing a column are row operations whose effect on a determinant is known.
-/
namespace RowReduction

open Tableau

variable {m n : Nat}

instance : Scalar.Ranked ℚ where
  outranks_asymm x y h := by
    rw [Exact.outranks_iff] at h
    rw [Bool.eq_false_iff, Ne, Exact.outranks_iff]
    exact h.le.not_gt
  not_outranks_trans x y z hxy hyz := by
    rw [Bool.eq_false_iff, Ne, Exact.outranks_iff, not_lt] at *
    exact hxy.trans hyz

/-- A magnitude that reaches a positive tolerance is not that of zero. -/
theorem Exact.ne_zero_of_lt_false {tolerance : ℚ} (htol : 0 < tolerance) {d : ℚ}
    (h : Scalar.lt (Scalar.abs d) tolerance = false) : d ≠ 0 := by
  rintro rfl
  rw [Exact.abs_eq, abs_zero, Bool.eq_false_iff, Ne, Exact.lt_iff] at h
  exact h htol

namespace Progress

/-- Everything from row `d.row` down is zero to the left of the place. -/
def ZeroLeft {α : Type} [Zero α] (s : Progress α m n) (d : Diagonal m n) : Prop :=
  ∀ r : Fin m, d.row ≤ r → ∀ j : Fin n, j.val < d.index → s.working r j = 0

theorem ZeroLeft.pivoted {α : Type} [Scalar α] {s : Progress α m n} {d : Diagonal m n}
    (h : s.ZeroLeft d) : (s.pivoted d).ZeroLeft d := by
  intro r hr j hj
  rw [pivoted_working, swapRows_apply]
  split
  · exact h _ (s.le_choice d) j hj
  · split
    · exact h _ (le_refl _) j hj
    · exact h r hr j hj

/-- The candidate is the largest magnitude from the place down. -/
theorem abs_le_candidate (s : Progress ℚ m n) (d : Diagonal m n) {r : Fin m} (hr : d.row ≤ r) :
    |s.working r d.column| ≤ s.candidate d := by
  have h := s.working.pivotRow_not_outranked d.row d.column hr
  rwa [Bool.eq_false_iff, Ne, Exact.outranks_iff, not_lt] at h

theorem isGreatest_candidate (s : Progress ℚ m n) (d : Diagonal m n) :
    IsGreatest ((fun r => |s.working r d.column|) '' Set.Ici d.row) (s.candidate d) := by
  constructor
  · exact ⟨s.choice d, s.le_choice d, rfl⟩
  · rintro _ ⟨r, hr, rfl⟩
    exact s.abs_le_candidate d hr

/-- A pivot that reaches a positive tolerance is not zero. -/
theorem pivot_ne_zero {s : Progress ℚ m n} {d : Diagonal m n} {tolerance : ℚ}
    (htol : 0 < tolerance) (h : Scalar.lt (s.candidate d) tolerance = false) :
    (s.pivoted d).working d.row d.column ≠ 0 := by
  rw [← abs_pivot] at h
  exact Exact.ne_zero_of_lt_false htol h

/-- Bringing up a pivot row changes the ratio by the sign of the exchange. -/
theorem rowEquivalent_pivoted {S : Tableau ℚ m n} {s : Progress ℚ m n} {e : ℚ}
    (h : RowEquivalent S s.working ((-1) ^ s.swaps * e)) (d : Diagonal m n) :
    RowEquivalent S (s.pivoted d).working ((-1) ^ (s.pivoted d).swaps * e) := by
  rw [pivoted_working, pivoted_swaps]
  by_cases hchoice : s.choice d = d.row
  · rw [if_pos hchoice, hchoice, swapRows_self]
    exact h
  · rw [if_neg hchoice, pow_succ]
    have hswap := h.swapRows (Ne.symm hchoice)
    rwa [mul_right_comm] at hswap

/-- Subtracting multiples of a row that is zero left of the place from other rows keeps the
ratio. -/
theorem rowEquivalent_foldl {S : Tableau ℚ m n} {d : Diagonal m n} {x : ℚ}
    {f : Progress ℚ m n → Fin m → Progress ℚ m n}
    (hf : ∀ s r, ∃ factor, (f s r).working = s.working.subtractRow d.row r d.index factor)
    {rows : List (Fin m)} (hd : d.row ∉ rows) :
    ∀ s : Progress ℚ m n, (∀ j : Fin n, j.val < d.index → s.working d.row j = 0) →
      RowEquivalent S s.working x → RowEquivalent S (rows.foldl f s).working x := by
  induction rows with
  | nil =>
      intro s _ h
      exact h
  | cons r rest ih =>
      intro s hzero h
      have hr : d.row ≠ r := List.ne_of_not_mem_cons hd
      obtain ⟨factor, hfactor⟩ := hf s r
      rw [List.foldl_cons]
      apply ih (List.not_mem_of_not_mem_cons hd)
      · intro j hj
        rw [hfactor, subtractRow_apply, if_neg (fun e => hr e.1)]
        exact hzero j hj
      · rw [hfactor]
        exact h.subtractRow hr.symm hzero factor

end Progress

end RowReduction
