import Mathlib.Data.ENat.Basic
import RowReduction.Proofs.Binary64.MultiplyBack
import RowReduction.Proofs.Binary64.Order
import RowReduction.Proofs.System.CheckedArrays

/-!
Which row the search for a pivot finds. Of the candidates with the largest magnitude it is the first
one, where not-a-number counts as larger than every number. The rows above the diagonal and the other
columns play no part in the search.
-/
namespace RowReduction

namespace Scalar

variable {α : Type} [Scalar α] [Scalar.Ranked α] {x y z : α}

/-- What outranks a number outranks everything that does not outrank it. -/
theorem outranks_of_not_outranks (hx : outranks x z = true) (hy : outranks y z = false) :
    outranks x y = true := by
  by_contra hxy
  have hxz := Ranked.not_outranks_trans x y z (Bool.eq_false_iff.mpr hxy) hy
  exact Bool.false_ne_true (hxz.symm.trans hx)

/-- What is outranked is outranked by everything that is not outranked in turn. -/
theorem outranks_of_not_outranked (hx : outranks x z = true) (hy : outranks x y = false) :
    outranks y z = true := by
  by_contra hyz
  have hxz := Ranked.not_outranks_trans x y z hy (Bool.eq_false_iff.mpr hyz)
  exact Bool.false_ne_true (hxz.symm.trans hx)

end Scalar

namespace Tableau

variable {m n : Nat}

section Ranked

variable {α : Type} [Scalar α] [Scalar.Ranked α]

/-- **The first maximum**: after a search from the top to the bottom, the best candidate outranks
every one that stands above it. -/
theorem foldl_betterRow_outranks (M : Tableau α m n) (j : Fin n) (rows : List (Fin m)) :
    ∀ best : Fin m, (best :: rows).Pairwise (· < ·) → ∀ r ∈ best :: rows,
      r < rows.foldl (M.betterRow j) best →
        Scalar.outranks (M (rows.foldl (M.betterRow j) best) j) (M r j) = true := by
  induction rows with
  | nil =>
      intro best _ r hr hlt
      rw [List.mem_singleton.mp hr] at hlt
      exact absurd hlt (Fin.lt_irrefl best)
  | cons q rest ih =>
      intro best hsorted r hr hlt
      simp only [List.pairwise_cons, List.mem_cons, forall_eq_or_imp] at hsorted
      obtain ⟨⟨hbestq, hbest⟩, hq, hrest⟩ := hsorted
      rw [List.foldl_cons] at hlt ⊢
      cases hbetter : Scalar.outranks (M q j) (M best j) with
      | true =>
          have hnext : M.betterRow j best q = q := if_pos hbetter
          rw [hnext] at hlt ⊢
          rcases List.mem_cons.mp hr with rfl | hr
          · have hmax := M.foldl_betterRow_not_outranked j rest q q List.mem_cons_self
            exact Scalar.outranks_of_not_outranked hbetter hmax
          · exact ih q (List.pairwise_cons.mpr ⟨hq, hrest⟩) r hr hlt
      | false =>
          have hnext : M.betterRow j best q = best := if_neg (Bool.eq_false_iff.mp hbetter)
          rw [hnext] at hlt ⊢
          have hahead := ih best (List.pairwise_cons.mpr ⟨hbest, hrest⟩)
          rcases List.mem_cons.mp hr with rfl | hr
          · exact hahead r List.mem_cons_self hlt
          · rcases List.mem_cons.mp hr with rfl | hr
            · -- the best row so far stands above this one and is not outranked by it
              have hpast := hahead best List.mem_cons_self (lt_trans hbestq hlt)
              exact Scalar.outranks_of_not_outranks hpast hbetter
            · exact hahead r (List.mem_cons_of_mem _ hr) hlt

theorem pairwise_rowsBelow (top : Fin m) : (top :: rowsBelow top).Pairwise (· < ·) := by
  refine List.pairwise_cons.mpr ⟨fun r hr => mem_rowsBelow.mp hr, ?_⟩
  rw [rowsBelow]
  exact (List.pairwise_lt_finRange m).filter _

/-- The pivot row outranks every candidate above it. -/
theorem pivotRow_outranks (M : Tableau α m n) (top : Fin m) (j : Fin n) {r : Fin m} (hr : top ≤ r)
    (hlt : r < M.pivotRow top j) :
    Scalar.outranks (M (M.pivotRow top j) j) (M r j) = true := by
  rw [pivotRow_eq_foldl] at hlt ⊢
  apply M.foldl_betterRow_outranks j _ _ (pairwise_rowsBelow top) r ?_ hlt
  rcases Fin.lt_or_eq_of_le hr with hbelow | rfl
  · exact List.mem_cons_of_mem _ (mem_rowsBelow.mpr hbelow)
  · exact List.mem_cons_self

end Ranked

end Tableau

namespace Binary64

/-- How large a number is, whatever its sign: units for a finite one, then infinity, then
not-a-number. -/
def magnitude : Binary64 → WithTop ℕ∞
  | nan => ⊤
  | infinite _ => ((⊤ : ℕ∞) : WithTop ℕ∞)
  | finite _ m => ((m.units : ℕ∞) : WithTop ℕ∞)

/-- **Ranking compares magnitudes.** -/
theorem outranks_iff_magnitude (x y : Binary64) :
    outranks x y = true ↔ y.magnitude < x.magnitude := by
  cases x with
  | nan => cases y <;> simp [outranks, magnitude, isNaN]
  | infinite s =>
      cases y with
      | nan => simp [outranks, magnitude, isNaN]
      | infinite t => simp [outranks, magnitude, isNaN, abs, lt]
      | finite t b => exact iff_of_true rfl (WithTop.coe_lt_coe.mpr (ENat.natCast_lt_top b.units))
  | finite s a =>
      cases y with
      | nan => simp [outranks, magnitude, isNaN]
      | infinite t => simp [outranks, magnitude, isNaN, abs, lt]
      | finite t b =>
          have hlt : outranks (finite s a) (finite t b) = b.lt a := rfl
          rw [hlt, Magnitude.lt_iff_units_lt]
          simp [magnitude]

end Binary64

/-- Of the rows from `top` down, a row with a largest magnitude in column `j`, and the first of
these. -/
structure Tableau.IsFirstLargest {m n : Nat} (M : Tableau Binary64 m n) (top : Fin m) (j : Fin n)
    (p : Fin m) : Prop where
  le : top ≤ p
  largest : ∀ r, top ≤ r → (M r j).magnitude ≤ (M p j).magnitude
  first : ∀ r, top ≤ r → r < p → (M r j).magnitude < (M p j).magnitude

/-- The search for a pivot finds the first row of the largest magnitude. -/
theorem Tableau.pivotRow_isFirstLargest {m n : Nat} (M : Tableau Binary64 m n) (top : Fin m)
    (j : Fin n) : M.IsFirstLargest top j (M.pivotRow top j) where
  le := M.le_pivotRow top j
  largest := by
    intro r hr
    have hnot := M.pivotRow_not_outranked top j hr
    rw [← not_lt, ← Binary64.outranks_iff_magnitude]
    exact Bool.eq_false_iff.mp hnot
  first := by
    intro r hr hlt
    rw [← Binary64.outranks_iff_magnitude]
    exact M.pivotRow_outranks top j hr hlt

namespace NumericArray

/-- **The choice of a pivot.** In every matrix, and in every column that reaches down to the
diagonal, the search for a pivot finds a row: from the diagonal down, the first one whose magnitude
no other exceeds, not-a-number being the largest. The row is that of the reductions, and it is the
same in every matrix of as many rows that shows the same candidates in this column. -/
theorem pivotRow_first_largest {m n : Nat} (entries : List Binary64) {column : Nat}
    (hrow : column < m) (hcolumn : column < n) :
    ∃ p : Fin m,
      pivotRow ⟨[m, n], entries⟩ column = .ok (p : Nat) ∧
      (tableau ⟨[m, n], entries⟩ m n).IsFirstLargest ⟨column, hrow⟩ ⟨column, hcolumn⟩ p ∧
      (tableau ⟨[m, n], entries⟩ m n).pivotRow ⟨column, hrow⟩ ⟨column, hcolumn⟩ = p ∧
      ∀ {n' : Nat} (entries' : List Binary64) (hcolumn' : column < n'),
        (∀ r : Fin m, column ≤ r →
          tableau ⟨[m, n'], entries'⟩ m n' r ⟨column, hcolumn'⟩ =
            tableau ⟨[m, n], entries⟩ m n r ⟨column, hcolumn⟩) →
        pivotRow ⟨[m, n'], entries'⟩ column = .ok (p : Nat) := by
  refine ⟨_, pivotRow_of_matrix entries hrow hcolumn,
    Tableau.pivotRow_isFirstLargest _ _ _, rfl, ?_⟩
  intro n' entries' hcolumn' hcandidates
  have hsame : (tableau ⟨[m, n'], entries'⟩ m n').pivotRow ⟨column, hrow⟩ ⟨column, hcolumn'⟩ =
      (tableau ⟨[m, n], entries⟩ m n).pivotRow ⟨column, hrow⟩ ⟨column, hcolumn⟩ :=
    Tableau.pivotRow_congr fun r hr => hcandidates r hr
  rw [pivotRow_of_matrix entries' hrow hcolumn', hsame]

/-- Four rows of two entries. In the second column the infinite entry stands above the diagonal, and
the candidates are one and, twice, not-a-number. -/
def twoUndefined : List Binary64 :=
  [.zero, .infinite false, .zero, .one, .zero, .nan, .zero, .nan]

/-- Four rows of three entries with the same candidates in the second column. -/
def twoUndefinedOfThree : List Binary64 :=
  [.nan, .nan, .nan, .one, .one, .one, .one, .nan, .zero, .zero, .nan, .one]

/-- In the second column the third row is found, in either matrix. -/
theorem pivotRow_first_largest_four :
    1 < 4 ∧ 1 < 2 ∧ 1 < 3 ∧
      (tableau ⟨[4, 2], twoUndefined⟩ 4 2).IsFirstLargest 1 1 2 ∧
      pivotRow ⟨[4, 2], twoUndefined⟩ (1 : Nat) = .ok (2 : Nat) ∧
      pivotRow ⟨[4, 3], twoUndefinedOfThree⟩ (1 : Nat) = .ok (2 : Nat) := by
  have hrow : 1 < 4 := by decide
  have hcolumn : 1 < 2 := by decide
  have hcolumn' : 1 < 3 := by decide
  obtain ⟨p, hfound, hfirst, hreduction, hsame⟩ :=
    pivotRow_first_largest twoUndefined hrow hcolumn
  have hp : p = 2 := by
    rw [← hreduction]
    show (tableau ⟨[4, 2], twoUndefined⟩ 4 2).pivotRow 1 1 = 2
    decide +kernel
  subst hp
  have hcandidates : ∀ r : Fin 4, 1 ≤ r.val →
      tableau ⟨[4, 3], twoUndefinedOfThree⟩ 4 3 r 1 = tableau ⟨[4, 2], twoUndefined⟩ 4 2 r 1 := by
    decide +kernel
  exact ⟨hrow, hcolumn, hcolumn', hfirst, hfound,
    hsame twoUndefinedOfThree hcolumn' hcandidates⟩

end NumericArray

end RowReduction
