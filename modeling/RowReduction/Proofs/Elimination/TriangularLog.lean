import RowReduction.Exact.Rational
import RowReduction.Proofs.Elimination.Replay

/-!
The log of a triangular reduction. Each place leaves a block: the exchange that brings its pivot row
up, if there is one, and the eliminations of the rows below whose factor is not zero. Rows with a
factor of zero stay as they are and leave no step, so the log can be replayed although it is silent
about them. The end of the log says how the reduction ended: with the triangular form and the
determinant, or with the column that has no pivot.
-/
namespace RowReduction

variable {α : Type} {m n : Nat}

/-- The sign of the exchanges, as a power. -/
theorem Progress.sign_eq (s : Progress α m n) : s.sign = (-1) ^ s.swaps := by
  rw [sign, neg_one_pow_eq_ite]
  simp only [Nat.even_iff]

variable [Scalar α]

/-- The steps that clear a column below its pivot: the rows below are taken from top to bottom, and
lose the pivot row times their entry over the pivot, unless that is zero. -/
def ClearsBelow (d : Diagonal m n) :
    Tableau α m n → List (RowStep α) → Tableau α m n → Prop :=
  Eliminates d (fun M r => M r d.column / M d.row d.column) Scalar.isZero (rowsBelow d.row)

/-- Clearing below takes the steps that it should. -/
theorem Progress.clearBelow_takes :
    Takes (α := α) (m := m) (n := n) ClearsBelow clearBelow where
  steps := by
    intro d s
    apply foldl_eliminates _ (not_mem_rowsBelow d.row) s rfl
    intro t ht r
    -- the loop divides by the pivot that it started with, which the tableau still shows
    rw [clearBelowRow, congrFun ht d.column]
  no_exchange := fun h => h.only_eliminations.1
  swaps := clearBelow_swaps
  pivots := clearBelow_pivots

namespace Tableau

/-- A reduction without a singular column comes with the blocks of all places. -/
theorem triangulate_blocks {A : Tableau α n n} {tolerance : α} {log : Log α}
    (h : (A.triangulate tolerance log).singularColumn = none) :
    let t := A.triangulate tolerance log
    ∃ blocks, Blocks ClearsBelow A n t.pivots blocks t.triangular ∧
      log.Extended (blocks ++ [.triangular t.triangular.toLists t.sign,
        .determinantValue t.value none []]) t.log ∧
      (blocks.filterMap Step.exchange?).length = t.swaps ∧ t.sign = (-1) ^ t.swaps := by
  obtain ⟨s, hsweep, ht⟩ := triangulate_of_none h
  obtain ⟨blocks, hblocks, hlog, hswaps⟩ := Sweep.run_blocks Progress.clearBelow_takes hsweep
  rw [Nat.min_self] at hblocks
  rw [ht]
  exact ⟨blocks, hblocks, hlog.trans ((s.log.extended_record _).trans (Log.extended_record _ _)),
    hswaps, s.sign_eq⟩

/-- **The log of a triangular reduction is complete and can be replayed.** Its blocks hold exchanges
and eliminations, and lead from the first tableau to the one that is returned. If no column is
singular there is a block for every column, and then the triangular form and the determinant end
the log. Otherwise there is a block for every column before the singular one, and one last step
shows that column with its largest candidate, which does not reach the tolerance. -/
theorem triangulate_log (A : Tableau α n n) (tolerance : α) (log : Log α) :
    let t := A.triangulate tolerance log
    ∃ blocks,
      Trail A blocks t.triangular ∧
      blocks.map Step.kind ⊆ ["swap", "eliminate"] ∧
      (blocks.filterMap Step.exchange?).length = t.swaps ∧
      t.sign = (-1) ^ t.swaps ∧
      match t.singularColumn with
      | none =>
        Blocks ClearsBelow A n t.pivots blocks t.triangular ∧
        log.Extended (blocks ++
          [.triangular (List.ofFn fun i => List.ofFn (t.triangular i)) t.sign,
            .determinantValue t.value none []]) t.log
      | some c => ∃ (d : Diagonal n n) (candidate : α),
        c = d.index ∧
        Blocks ClearsBelow A d.index t.pivots blocks t.triangular ∧
        log.Extended (blocks ++ [.singularPivot c candidate tolerance
          (List.ofFn fun i => List.ofFn (t.triangular i))]) t.log ∧
        candidate = Scalar.abs (t.triangular (t.triangular.pivotRow d.row d.column) d.column) ∧
        Scalar.lt candidate tolerance = true ∧
        t.value = 0 := by
  intro t
  simp only [← toLists_eq_ofFn]
  cases hcolumn : t.singularColumn with
  | none =>
      obtain ⟨blocks, hblocks, hlog, hswaps, hsign⟩ := triangulate_blocks hcolumn
      exact ⟨blocks, hblocks.trail Eliminates.trail, hblocks.kinds Eliminates.kinds, hswaps, hsign,
        hblocks, hlog⟩
  | some c =>
      obtain ⟨v, s, hsweep, hs⟩ := triangulate_of_some hcolumn
      have ht : t = s.singularTriangulation tolerance c v := hs
      obtain ⟨d, rfl, rfl, hlt, hbefore⟩ := Sweep.run_stalled _ _ _ hsweep
      obtain ⟨blocks, hblocks, hlog, hswaps⟩ :=
        Sweep.run_blocks Progress.clearBelow_takes hbefore
      rw [ht]
      exact ⟨blocks, hblocks.trail Eliminates.trail, hblocks.kinds Eliminates.kinds, hswaps,
        s.sign_eq, d, _, rfl, hblocks, hlog.trans (s.log.extended_record _), rfl, hlt, rfl⟩

/-- Rows of which the last two are the same, and the first has to be exchanged. -/
def repeatedRow : Tableau ℚ 3 3 := ⟨#v[#v[0, 1, 3], #v[2, 4, 6], #v[2, 4, 6]]⟩

/-- The log of these rows, with every tableau in full: one row is skipped, and one is left at zero. -/
theorem triangulate_log_three :
    ∃ blocks, (repeatedRow.triangulate 1 .empty).log.steps? = some (blocks ++
        [.singularPivot 2 0 1 [[2, 4, 6], [0, 1, 3], [0, 0, 0]]]) ∧
      blocks.map (fun s => (s.kind, s.tableau?)) =
        [("swap", some [[2, 4, 6], [0, 1, 3], [2, 4, 6]]),
          ("eliminate", some [[2, 4, 6], [0, 1, 3], [0, 0, 0]])] := by
  have hcolumn : (repeatedRow.triangulate 1 .empty).singularColumn = some 2 := by decide +kernel
  have htriangular : (repeatedRow.triangulate 1 .empty).triangular.toLists =
      [[2, 4, 6], [0, 1, 3], [0, 0, 0]] := by decide +kernel
  have hcandidate : Scalar.abs ((repeatedRow.triangulate 1 .empty).triangular 2 2) = 0 := by
    decide +kernel
  have hsteps : (repeatedRow.triangulate 1 .empty).log.steps.dropLast.map
      (fun s => (s.kind, s.tableau?)) =
        [("swap", some [[2, 4, 6], [0, 1, 3], [2, 4, 6]]),
          ("eliminate", some [[2, 4, 6], [0, 1, 3], [0, 0, 0]])] := by decide +kernel
  obtain ⟨blocks, _, _, _, _, hends⟩ := triangulate_log repeatedRow 1 .empty
  rw [hcolumn] at hends
  obtain ⟨d, candidate, hd, _, hlog, hlargest, _⟩ := hends
  -- in the last column there is only one row to choose from
  have hlast (p : Fin 3) (hp : d.row ≤ p) : p = 2 := by
    have hrow : (2 : Nat) ≤ p := hd ▸ hp
    omega
  rw [hlast _ (le_pivotRow _ _ _), show d.column = 2 from Fin.ext hd.symm, hcandidate] at hlargest
  have hall : (repeatedRow.triangulate 1 .empty).log.steps? = _ := hlog.steps?_eq_some
  rw [← toLists_eq_ofFn, htriangular, hlargest] at hall
  refine ⟨blocks, hall, ?_⟩
  rw [← hsteps, Log.steps, hall]
  simp

end Tableau

end RowReduction
