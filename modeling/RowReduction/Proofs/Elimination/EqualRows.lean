import Mathlib
import RowReduction.Proofs.Elimination.StructuralZeros

/-!
Two equal rows under Gauss-Jordan reduction. The pivot row is divided by its pivot before multiples of
it are subtracted, so a row equal to it does not cancel by itself: there remains what the rounded
quotients do not multiply back to. A reduction with an answer has taken such a remainder, rewritten
at the places in between, for a pivot row. Where the quotients do multiply back, nothing remains and
the reduction breaks down.
-/
namespace RowReduction

variable {n : Nat}

/-! ## One place -/

section Rows

variable {d : Diagonal n n} {w row row' : Fin n → Binary64}

theorem clearedRow_sameNumber (hsame : ∀ j, (row j).SameNumber (row' j)) (j : Fin n) :
    (Progress.clearedRow d w row j).SameNumber (Progress.clearedRow d w row' j) := by
  rw [Progress.clearedRow, Progress.clearedRow]
  split
  · exact (hsame j).sub ((hsame d.column).mul _)
  · exact hsame j

/-- **A row equal to the pivot row cancels** where the quotients of the pivot row multiply back. -/
theorem zeroFrom_clearedRow (hfinite : ∀ j, (w j).isFinite = true)
    (hsame : ∀ j, (w j).SameNumber (row j))
    (hback : ∀ j : Fin n, d.index ≤ j →
      (w j).SameNumber (w d.column * (w j / w d.column))) :
    ZeroFrom d.index (Progress.clearedRow d w row) := by
  intro j hj
  rw [Progress.clearedRow, if_pos hj]
  have hterms : (w j - w j).SameNumber (row j - row d.column * (w j / w d.column)) :=
    (hsame j).sub ((hback j hj).trans ((hsame d.column).mul _))
  exact hterms.isZero_right ((Binary64.SameNumber.refl _).isZero_sub (hfinite j))

end Rows

namespace Progress

/-- A remaining row is equal to the chosen one. -/
def HasTwin (u : Progress Binary64 n n) (d : Diagonal n n) : Prop :=
  ∃ q, d.row ≤ q ∧ q ≠ u.choice d ∧
    ∀ j, (u.working (u.choice d) j).eq (u.working q j) = true

/-- The numbers of the chosen row, divided by its pivot, give back the same numbers when they are
multiplied by it. -/
def MultipliesBack (u : Progress Binary64 n n) (d : Diagonal n n) : Prop :=
  ∀ j : Fin n, d.index ≤ j →
    (u.working (u.choice d) j).eq (u.working (u.choice d) d.column *
      (u.working (u.choice d) j / u.working (u.choice d) d.column)) = true

instance (u : Progress Binary64 n n) (d : Diagonal n n) : Decidable (u.HasTwin d) :=
  inferInstanceAs (Decidable (∃ q, d.row ≤ q ∧ q ≠ u.choice d ∧
    ∀ j, (u.working (u.choice d) j).eq (u.working q j) = true))

instance (u : Progress Binary64 n n) (d : Diagonal n n) : Decidable (u.MultipliesBack d) :=
  inferInstanceAs (Decidable (∀ j : Fin n, d.index ≤ j →
    (u.working (u.choice d) j).eq (u.working (u.choice d) d.column *
      (u.working (u.choice d) j / u.working (u.choice d) d.column)) = true))

end Progress

/-! ## Whole sweeps -/

/-- What remains of a row that was equal to a pivot row: the row as it is rewritten at that place,
and as it is rewritten at the places after it. -/
inductive Remainder (tolerance : Binary64) (s : Progress Binary64 n n) :
    Nat → (Fin n → Binary64) → Prop
  | made {d : Diagonal n n} {u : Progress Binary64 n n} {q : Fin n}
      (h : Sweep.Passes Progress.clearColumn tolerance s d u) (hq : d.row ≤ q)
      (hother : q ≠ u.choice d)
      (hsame : ∀ j, (u.working (u.choice d) j).SameNumber (u.working q j)) :
      Remainder tolerance s (d.index + 1)
        (Progress.clearedRow d (u.working (u.choice d)) (u.working q))
  | kept {d : Diagonal n n} {u : Progress Binary64 n n} {row : Fin n → Binary64}
      (h : Sweep.Passes Progress.clearColumn tolerance s d u)
      (hrow : Remainder tolerance s d.index row) :
      Remainder tolerance s (d.index + 1) (Progress.clearedRow d (u.working (u.choice d)) row)

namespace Tableau

/-- Wherever a sweep chooses a row that has a twin, the quotients multiply back. -/
def TwinsMultiplyBack (tolerance : Binary64) (A : Tableau Binary64 n n) : Prop :=
  ∀ k : Fin n,
    (Sweep.run Progress.clearColumn tolerance (.start A .off) k Fin.is_le' Fin.is_le').WhenComplete
      fun u => u.HasTwin ⟨k, k.isLt, k.isLt⟩ → u.MultipliesBack ⟨k, k.isLt, k.isLt⟩

instance (tolerance : Binary64) (A : Tableau Binary64 n n) :
    Decidable (A.TwinsMultiplyBack tolerance) :=
  inferInstanceAs (Decidable (∀ k : Fin n,
    (Sweep.run Progress.clearColumn tolerance (.start A .off) k Fin.is_le' Fin.is_le').WhenComplete
      fun u => u.HasTwin ⟨k, k.isLt, k.isLt⟩ → u.MultipliesBack ⟨k, k.isLt, k.isLt⟩))

variable {A : Tableau Binary64 n n} {tolerance : Binary64} {d : Diagonal n n}
  {t u : Progress Binary64 n n}

theorem TwinsMultiplyBack.multipliesBack (h : A.TwinsMultiplyBack tolerance)
    (hu : Sweep.Passes Progress.clearColumn tolerance (.start A .off) d u) (htwin : u.HasTwin d) :
    u.MultipliesBack d := by
  have hd := h ⟨d.index, d.row_lt⟩
  dsimp only at hd
  rw [hu.reached] at hd
  exact hd htwin

/-- A sweep passes a place where what remained of an equal row is chosen: its entry there is not
below the tolerance. -/
def AcceptsRemainder (tolerance : Binary64) (A : Tableau Binary64 n n) : Prop :=
  ∃ d u, Sweep.Passes Progress.clearColumn tolerance (.start A .off) d u ∧
    Remainder tolerance (.start A .off) d.index (u.working (u.choice d))

/-- **A complete sweep rests on a remainder** when it started with two equal rows. -/
theorem HasEqualRows.acceptsRemainder (h : A.HasEqualRows)
    (ht : Sweep.run Progress.clearColumn tolerance (.start A .off) n (le_refl n) (le_refl n) =
      .complete t) : A.AcceptsRemainder tolerance := by
  obtain ⟨p, q, hne, hrows⟩ := h
  obtain ⟨c, v, r, hv, hr, hother, hsame⟩ := Sweep.exists_split Progress.clearColumn_rewritesBelow
    (R := fun x y => ∀ j, (x j).SameNumber (y j)) (fun x y hxy j => (hxy j).symm)
    (fun d w x y hxy => clearedRow_sameNumber hxy) ht hne
    (fun j => Binary64.sameNumber_of_eq (hrows j))
  have hmade : Remainder tolerance (.start A .off) (c.index + 1)
      ((Progress.clearColumn c (v.pivoted c)).working (v.newPlace c r)) := by
    rw [Progress.clearColumn_rewritesBelow.newPlace hr hother]
    exact .made hv hr hother hsame
  obtain ⟨d, u, _, hu, hchosen⟩ := Sweep.exists_chosen Progress.clearColumn_rewritesBelow
    (P := fun k row => Remainder tolerance (.start A .off) k row)
    (fun d u hu q hq => .kept hu hq) ht hv.run_succ (Progress.lt_newPlace hr hother) hmade
  exact ⟨d, u, hu, hchosen⟩

/-- **Nothing remains** where the quotients multiply back. -/
theorem zeroFrom_of_remainder
    (hfinite : A.StaysFinite Progress.clearColumn tolerance)
    (hback : A.TwinsMultiplyBack tolerance) {k : Nat} {row : Fin n → Binary64}
    (h : Remainder tolerance (.start A .off) k row) : ZeroFrom k row := by
  induction h with
  | @made d u q hu hq hother hsame =>
      have hnumbers (j : Fin n) := Binary64.isNaN_of_isFinite (hfinite.before hu (u.choice d) j)
      have htwin : u.HasTwin d :=
        ⟨q, hq, hother, fun j => (hsame j).eq_of_isNaN (hnumbers j)⟩
      have hquotients := hback.multipliesBack hu htwin
      exact (zeroFrom_clearedRow (hfinite.before hu _) hsame
        fun j hj => Binary64.sameNumber_of_eq (hquotients j hj)).mono (Nat.le_succ _)
  | @kept d u row hu _ ih =>
      have hzero : ZeroFrom d.index (Progress.clearedRow d (u.working (u.choice d)) row) :=
        ih.clearedRow fun j hj => hfinite.quotient hu hj
      exact hzero.mono (Nat.le_succ _)

/-- So no remainder is accepted there. -/
theorem not_acceptsRemainder (htol : Binary64.zero.lt tolerance = true)
    (hfinite : A.StaysFinite Progress.clearColumn tolerance)
    (hback : A.TwinsMultiplyBack tolerance) : ¬ A.AcceptsRemainder tolerance := by
  rintro ⟨d, u, hu, hchosen⟩
  have hzero := zeroFrom_of_remainder hfinite hback hchosen
  exact nomatch (hu.pivot_isZero htol).symm.trans (hzero d.column (le_refl _))

/-- **Equal rows are refused**, whatever the right-hand side is, unless a remainder is accepted. -/
theorem HasEqualRows.gaussJordan_error (h : A.HasEqualRows)
    (hremainder : ¬ A.AcceptsRemainder tolerance) (b : Vector Binary64 n) (log : Log Binary64) :
    ∃ f, A.gaussJordan b tolerance log = .error f := by
  obtain ⟨c, v, t, ht⟩ := Sweep.exists_stalled fun t ht => hremainder (h.acceptsRemainder ht)
  obtain ⟨f, hf, _⟩ := gaussJordan_error_of_stalled ht b log
  exact ⟨f, hf⟩

end Tableau

end RowReduction
