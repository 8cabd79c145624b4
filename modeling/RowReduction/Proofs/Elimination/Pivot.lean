import RowReduction.Elimination.Pivot

/-!
The choice of a pivot. When "does not outrank" is a weak order, the pivot row is outranked by no
candidate.
-/
namespace RowReduction

/-- Ranking by magnitude is a weak order: of two numbers at most one outranks the other, and not
outranking is transitive. -/
class Scalar.Ranked (α : Type) [Scalar α] : Prop where
  outranks_asymm : ∀ x y : α, Scalar.outranks x y = true → Scalar.outranks y x = false
  not_outranks_trans : ∀ x y z : α, Scalar.outranks x y = false → Scalar.outranks y z = false →
    Scalar.outranks x z = false

theorem Scalar.outranks_irrefl {α : Type} [Scalar α] [Scalar.Ranked α] (x : α) :
    Scalar.outranks x x = false := by
  cases h : Scalar.outranks x x with
  | false => rfl
  | true => exact h ▸ Scalar.Ranked.outranks_asymm x x h

namespace Tableau

variable {α : Type} [Scalar α] {m n : Nat}

/-- One comparison of the search for a pivot row. -/
def betterRow (M : Tableau α m n) (j : Fin n) (best r : Fin m) : Fin m :=
  if Scalar.outranks (M r j) (M best j) then r else best

theorem pivotRow_eq_foldl (M : Tableau α m n) (top : Fin m) (j : Fin n) :
    M.pivotRow top j = (rowsBelow top).foldl (M.betterRow j) top := rfl

theorem le_betterRow (M : Tableau α m n) (j : Fin n) {top best r : Fin m} (hbest : top ≤ best)
    (hr : top ≤ r) : top ≤ M.betterRow j best r := by
  rw [betterRow]
  split
  · exact hr
  · exact hbest

/-- **The search compares the candidates only**: two tableaus whose candidates, from row `top` down
and each in its own column, rank alike have the same pivot row. -/
theorem pivotRow_eq_of_outranks {n' : Nat} {M : Tableau α m n} {N : Tableau α m n'} {top : Fin m}
    {j : Fin n} {j' : Fin n'}
    (h : ∀ r q, top ≤ r → top ≤ q →
      Scalar.outranks (M r j) (M q j) = Scalar.outranks (N r j') (N q j')) :
    M.pivotRow top j = N.pivotRow top j' := by
  have fold (rows : List (Fin m)) (hrows : ∀ r ∈ rows, top ≤ r) (best : Fin m)
      (hbest : top ≤ best) :
      rows.foldl (M.betterRow j) best = rows.foldl (N.betterRow j') best := by
    induction rows generalizing best with
    | nil => rfl
    | cons r rest ih =>
        have hr : top ≤ r := hrows r List.mem_cons_self
        have hbetter : M.betterRow j best r = N.betterRow j' best r := by
          rw [betterRow, betterRow, h r best hr hbest]
        rw [List.foldl_cons, List.foldl_cons, hbetter]
        exact ih (fun s hs => hrows s (List.mem_cons_of_mem _ hs)) _ (N.le_betterRow j' hbest hr)
  rw [pivotRow_eq_foldl, pivotRow_eq_foldl]
  exact fold _ (fun r hr => Fin.le_of_lt (mem_rowsBelow.mp hr)) top (Nat.le_refl _)

/-- So two tableaus that show the same candidates have the same pivot row. -/
theorem pivotRow_congr {n' : Nat} {M : Tableau α m n} {N : Tableau α m n'} {top : Fin m}
    {j : Fin n} {j' : Fin n'} (h : ∀ r, top ≤ r → M r j = N r j') :
    M.pivotRow top j = N.pivotRow top j' :=
  pivotRow_eq_of_outranks fun r q hr hq => by rw [h r hr, h q hq]

variable [Scalar.Ranked α]

/-- The better of two rows is outranked by neither. -/
theorem betterRow_not_outranked (M : Tableau α m n) (j : Fin n) (best r : Fin m) :
    Scalar.outranks (M best j) (M (M.betterRow j best r) j) = false ∧
      Scalar.outranks (M r j) (M (M.betterRow j best r) j) = false := by
  rw [betterRow]
  split
  · rename_i hr
    exact ⟨Scalar.Ranked.outranks_asymm _ _ hr, Scalar.outranks_irrefl _⟩
  · rename_i hr
    exact ⟨Scalar.outranks_irrefl _, Bool.eq_false_iff.mpr hr⟩

/-- **The running maximum**: after a search through `rows`, neither the first candidate nor any of
the rows outranks the best one. -/
theorem foldl_betterRow_not_outranked (M : Tableau α m n) (j : Fin n) (rows : List (Fin m)) :
    ∀ best : Fin m, ∀ r ∈ best :: rows,
      Scalar.outranks (M r j) (M (rows.foldl (M.betterRow j) best) j) = false := by
  induction rows with
  | nil =>
      intro best r hr
      rw [List.mem_singleton.mp hr]
      exact Scalar.outranks_irrefl _
  | cons q rest ih =>
      intro best r hr
      rw [List.foldl_cons]
      -- the rows seen so far rank below the better of two, and that one below the final best
      have hbetter := M.betterRow_not_outranked j best q
      have hnext := ih (M.betterRow j best q) (M.betterRow j best q) List.mem_cons_self
      rcases List.mem_cons.mp hr with rfl | hr
      · exact Scalar.Ranked.not_outranks_trans _ _ _ hbetter.1 hnext
      · rcases List.mem_cons.mp hr with rfl | hr
        · exact Scalar.Ranked.not_outranks_trans _ _ _ hbetter.2 hnext
        · exact ih _ r (List.mem_cons_of_mem _ hr)

/-- No candidate outranks the pivot row. -/
theorem pivotRow_not_outranked (M : Tableau α m n) (top : Fin m) (j : Fin n) {r : Fin m}
    (hr : top ≤ r) : Scalar.outranks (M r j) (M (M.pivotRow top j) j) = false := by
  rw [pivotRow_eq_foldl]
  apply foldl_betterRow_not_outranked
  rcases Fin.lt_or_eq_of_le hr with hlt | rfl
  · exact List.mem_cons_of_mem _ (mem_rowsBelow.mpr hlt)
  · exact List.mem_cons_self

end Tableau

end RowReduction
