import Mathlib
import RowReduction.Proofs.Elimination.Clearing

/-!
The rows that have not been pivot rows yet. Bringing a pivot row up moves at most one other row, and
a clearing rule then rewrites every row below the pivot row from the two of them. So what the rule
preserves of a remaining row goes with that row wherever it stands, and a complete sweep over all
rows comes to choose it.
-/
namespace RowReduction

variable {α : Type} {m n : Nat}

namespace Progress

/-- A clearing rule rewrites the rows below the pivot row by `rule`, each from the pivot row and
itself. -/
def RewritesBelow (rule : Diagonal m n → (Fin n → α) → (Fin n → α) → Fin n → α)
    (clear : Diagonal m n → Progress α m n → Progress α m n) : Prop :=
  ∀ (d : Diagonal m n) (s : Progress α m n) (r : Fin m), d.row < r →
    (clear d s).working r = rule d (s.working d.row) (s.working r)

variable [Scalar α]

/-- How clearing above and below rewrites a row. -/
def clearedRow (d : Diagonal m n) (pivotRow row : Fin n → α) (j : Fin n) : α :=
  if d.index ≤ j then row j - row d.column * (pivotRow j / pivotRow d.column) else row j

/-- How clearing below rewrites a row. -/
def clearedBelowRow (d : Diagonal m n) (pivotRow row : Fin n → α) (j : Fin n) : α :=
  if Scalar.isZero (row d.column / pivotRow d.column) = false ∧ d.index ≤ j then
    row j - row d.column / pivotRow d.column * pivotRow j
  else row j

theorem clearColumn_rewritesBelow :
    RewritesBelow clearedRow (clearColumn : Diagonal m n → Progress α m n → Progress α m n) := by
  intro d s r hr
  funext j
  rw [clearColumn_working, if_neg (Fin.ne_of_gt hr), clearedRow]

theorem clearBelow_rewritesBelow :
    RewritesBelow clearedBelowRow
      (clearBelow : Diagonal m n → Progress α m n → Progress α m n) := by
  intro d s r hr
  funext j
  rw [clearBelow_working, clearedBelowRow]
  simp only [hr, true_and]

/-! ## One place -/

/-- Where a row stands after the pivot row has been brought up. -/
def newPlace (s : Progress α m n) (d : Diagonal m n) (q : Fin m) : Fin m :=
  if q = d.row then s.choice d else q

variable {s : Progress α m n} {d : Diagonal m n} {p q : Fin m}

theorem pivoted_working_newPlace (hq : q ≠ s.choice d) :
    (s.pivoted d).working (s.newPlace d q) = s.working q := by
  funext j
  rw [pivoted_working, Tableau.swapRows_apply, newPlace]
  by_cases hrow : q = d.row
  · have hmoved : s.choice d ≠ d.row := fun h => hq (hrow.trans h.symm)
    rw [if_pos hrow, if_neg hmoved, if_pos rfl, hrow]
  · rw [if_neg hrow, if_neg hrow, if_neg hq]

/-- A row that is not chosen stands below the pivot row. -/
theorem lt_newPlace (hrow : d.row ≤ q) (hq : q ≠ s.choice d) : d.row < s.newPlace d q := by
  have hchoice := s.le_choice d
  rw [newPlace]
  split
  · rename_i heq
    exact lt_of_le_of_ne hchoice (fun h => hq (heq.trans h))
  · rename_i hne
    exact lt_of_le_of_ne hrow (Ne.symm hne)

/-- Rows that are not chosen stay apart. -/
theorem newPlace_ne (hp : p ≠ s.choice d) (hq : q ≠ s.choice d) (hne : p ≠ q) :
    s.newPlace d p ≠ s.newPlace d q := by
  rw [newPlace, newPlace]
  split
  · rename_i hrow
    rw [if_neg (fun h => hne (hrow.trans h.symm))]
    exact hq.symm
  · split
    · exact hp
    · exact hne

/-- **A row that is not chosen** is rewritten from the chosen row and itself. -/
theorem RewritesBelow.newPlace {rule : Diagonal m n → (Fin n → α) → (Fin n → α) → Fin n → α}
    {clear : Diagonal m n → Progress α m n → Progress α m n} (hrule : RewritesBelow rule clear)
    (hrow : d.row ≤ q) (hq : q ≠ s.choice d) :
    (clear d (s.pivoted d)).working (s.newPlace d q) =
      rule d (s.working (s.choice d)) (s.working q) := by
  have hpivot : (s.pivoted d).working d.row = s.working (s.choice d) :=
    funext fun j => s.pivoted_working_row d j
  rw [hrule d _ _ (lt_newPlace hrow hq), hpivot, pivoted_working_newPlace hq]

end Progress

/-! ## Whole sweeps -/

namespace Sweep

variable [Scalar α] {rule : Diagonal m n → (Fin n → α) → (Fin n → α) → Fin n → α}
  {clear : Diagonal m n → Progress α m n → Progress α m n} {tolerance : α} {s t : Progress α m n}

/-- **A remaining row is chosen.** What a rule preserves of the remaining rows, and holds of one of
them after `k` places, holds of the chosen row at some later place of a complete sweep over all
rows. -/
theorem exists_chosen (hrule : Progress.RewritesBelow rule clear)
    {P : Nat → (Fin n → α) → Prop}
    (hstep : ∀ (d : Diagonal m n) (u : Progress α m n), Passes clear tolerance s d u →
      ∀ q, P d.index (u.working q) →
        P (d.index + 1) (rule d (u.working (u.choice d)) (u.working q)))
    {hn : m ≤ n} (ht : run clear tolerance s m (le_refl m) hn = complete t) {k : Nat}
    {hkm : k ≤ m} {hkn : k ≤ n} {u : Progress α m n}
    (hu : run clear tolerance s k hkm hkn = complete u) {q : Fin m} (hq : k ≤ q)
    (hP : P k (u.working q)) :
    ∃ (d : Diagonal m n) (v : Progress α m n), k ≤ d.index ∧ Passes clear tolerance s d v ∧
      P d.index (v.working (v.choice d)) := by
  by_contra hnone
  -- a row that is never chosen is still there when all rows have been
  have hremains (l : Nat) (hkl : k ≤ l) : ∀ (hlm : l ≤ m) (hln : l ≤ n),
      ∃ (v : Progress α m n) (r : Fin m), run clear tolerance s l hlm hln = complete v ∧
        l ≤ r ∧ P l (v.working r) := by
    induction l, hkl using Nat.le_induction with
    | base => exact fun _ _ => ⟨u, q, hu, hq, hP⟩
    | succ l hkl ih =>
        intro hlm hln
        obtain ⟨v, r, hv, hr, hPr⟩ := ih (Nat.le_of_succ_le hlm) (Nat.le_of_succ_le hln)
        have hpasses : Passes clear tolerance s ⟨l, hlm, hln⟩ v :=
          passes_of_reached ht ⟨l, hlm, hln⟩ hlm hv
        have hother : r ≠ v.choice ⟨l, hlm, hln⟩ := by
          rintro rfl
          exact hnone ⟨_, v, hkl, hpasses, hPr⟩
        refine ⟨_, v.newPlace ⟨l, hlm, hln⟩ r, hpasses.run_succ, Progress.lt_newPlace hr hother, ?_⟩
        rw [hrule.newPlace hr hother]
        exact hstep _ v hpasses r hPr
  obtain ⟨_, r, _, hr, _⟩ := hremains m hkm (le_refl m) hn
  exact absurd r.isLt (Nat.not_lt.mpr hr)

/-- **Two related rows are told apart.** Two rows that are related, by a relation that the rule
preserves, stay related until a complete sweep over all rows chooses one of them. -/
theorem exists_split (hrule : Progress.RewritesBelow rule clear)
    {R : (Fin n → α) → (Fin n → α) → Prop} (hsymm : ∀ x y, R x y → R y x)
    (hstep : ∀ (d : Diagonal m n) (w x y : Fin n → α), R x y → R (rule d w x) (rule d w y))
    {hn : m ≤ n} (ht : run clear tolerance s m (le_refl m) hn = complete t) {p q : Fin m}
    (hne : p ≠ q) (hR : R (s.working p) (s.working q)) :
    ∃ (d : Diagonal m n) (u : Progress α m n) (r : Fin m), Passes clear tolerance s d u ∧
      d.row ≤ r ∧ r ≠ u.choice d ∧ R (u.working (u.choice d)) (u.working r) := by
  by_contra hnone
  have hremain (l : Nat) : ∀ (hlm : l ≤ m) (hln : l ≤ n),
      ∃ (v : Progress α m n) (x y : Fin m), run clear tolerance s l hlm hln = complete v ∧
        l ≤ x ∧ l ≤ y ∧ x ≠ y ∧ R (v.working x) (v.working y) := by
    induction l with
    | zero => exact fun _ _ => ⟨s, p, q, rfl, Nat.zero_le _, Nat.zero_le _, hne, hR⟩
    | succ l ih =>
        intro hlm hln
        obtain ⟨v, x, y, hv, hx, hy, hxy, hRxy⟩ :=
          ih (Nat.le_of_succ_le hlm) (Nat.le_of_succ_le hln)
        have hpasses : Passes clear tolerance s ⟨l, hlm, hln⟩ v :=
          passes_of_reached ht ⟨l, hlm, hln⟩ hlm hv
        have hxother : x ≠ v.choice ⟨l, hlm, hln⟩ := by
          rintro rfl
          exact hnone ⟨_, v, y, hpasses, hy, hxy.symm, hRxy⟩
        have hyother : y ≠ v.choice ⟨l, hlm, hln⟩ := by
          rintro rfl
          exact hnone ⟨_, v, x, hpasses, hx, hxy, hsymm _ _ hRxy⟩
        refine ⟨_, v.newPlace ⟨l, hlm, hln⟩ x, v.newPlace ⟨l, hlm, hln⟩ y, hpasses.run_succ,
          Progress.lt_newPlace hx hxother, Progress.lt_newPlace hy hyother,
          Progress.newPlace_ne hxother hyother hxy, ?_⟩
        rw [hrule.newPlace hx hxother, hrule.newPlace hy hyother]
        exact hstep _ _ _ _ hRxy
  obtain ⟨_, x, _, _, hx, _⟩ := hremain m (le_refl m) hn
  exact absurd x.isLt (Nat.not_lt.mpr hx)

end Sweep

end RowReduction
