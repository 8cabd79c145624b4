import RowReduction.Proofs.Elimination.Pivot
import RowReduction.Proofs.Elimination.SideBySide
import RowReduction.System.Solution

/-!
The right-hand side of a Gauss-Jordan reduction. Every choice is made in the columns of the matrix,
and every entry is rewritten from entries of its own column and of the pivot column. So a reduction
of the augmented tableau, seen without its last column, is a reduction of the matrix alone, step by
step, whatever numbers the last column holds.
-/
namespace RowReduction

variable {α : Type} {m n : Nat}

/-! ## Covering the last column -/

namespace Tableau

/-- The tableau without its last column: the matrix of an augmented one. -/
def matrixPart (M : Tableau α m (n + 1)) : Tableau α m n := ofFn fun i j => M i j.castSucc

@[simp] theorem matrixPart_apply (M : Tableau α m (n + 1)) (i : Fin m) (j : Fin n) :
    M.matrixPart i j = M i j.castSucc := ofFn_apply _ i j

theorem augment_matrixPart (A : Tableau α m n) (b : Vector α m) : (A.augment b).matrixPart = A := by
  ext i j
  have hj : j.castSucc.val < n := j.isLt
  rw [matrixPart_apply, augment_apply, dif_pos hj]
  rfl

/-- Shown as lists, the tableau loses the last number of every row. -/
theorem matrixPart_toLists (M : Tableau α m (n + 1)) :
    M.matrixPart.toLists = M.toLists.map List.dropLast := by
  rw [toLists_eq_ofFn, toLists_eq_ofFn, List.map_ofFn]
  congr 1
  funext i
  rw [Function.comp_apply, List.ofFn_succ_last, List.dropLast_concat]
  exact congrArg List.ofFn (funext fun j => M.matrixPart_apply i j)

theorem swapRows_matrixPart (M : Tableau α m (n + 1)) (i p : Fin m) :
    (M.swapRows i p).matrixPart = M.matrixPart.swapRows i p := by
  ext r j
  simp only [matrixPart_apply, swapRows_apply]

theorem divideRow_matrixPart [Div α] (M : Tableau α m (n + 1)) (i : Fin m) (start : Nat)
    (pivot : α) :
    (M.divideRow i start pivot).matrixPart = M.matrixPart.divideRow i start pivot := by
  ext r j
  simp only [matrixPart_apply, divideRow_apply]
  rfl

theorem subtractRow_matrixPart [Sub α] [Mul α] (M : Tableau α m (n + 1)) (source target : Fin m)
    (start : Nat) (factor : α) :
    (M.subtractRow source target start factor).matrixPart =
      M.matrixPart.subtractRow source target start factor := by
  ext r j
  simp only [matrixPart_apply, subtractRow_apply]
  rfl

end Tableau

/-- What a step shows of the matrix: its kind, its rows and its numbers, and the tableau without the
last column. The solution is read off that column and left out. -/
def Step.matrixPart : RowStep α → RowStep α
  | .initial t => .initial (t.map List.dropLast)
  | .swap row pivotRow t => .swap row pivotRow (t.map List.dropLast)
  | .normalize row pivot t => .normalize row pivot (t.map List.dropLast)
  | .eliminate source target factor t => .eliminate source target factor (t.map List.dropLast)
  | .singularPivot column pivot tolerance t =>
    .singularPivot column pivot tolerance (t.map List.dropLast)
  | .triangular t sign => .triangular (t.map List.dropLast) sign
  | .determinantValue value t steps => .determinantValue value (t.map (·.map List.dropLast)) steps
  | .unknown index determinant divisor t steps value =>
    .unknown index determinant divisor (t.map List.dropLast) steps value
  | .final _ t => .final [] (t.map (·.map List.dropLast))

namespace Log

/-- What the steps of a log show of the matrix. -/
def matrixPart (log : Log α) : Log α := ⟨log.newestFirst?.map (List.map Step.matrixPart)⟩

theorem steps?_matrixPart (log : Log α) :
    log.matrixPart.steps? = log.steps?.map (List.map Step.matrixPart) := by
  obtain ⟨_ | entries⟩ := log
  · rfl
  · exact congrArg some (List.map_reverse).symm

theorem record_matrixPart (log : Log α) (step : Unit → RowStep α) :
    (log.record step).matrixPart = log.matrixPart.record fun _ => (step ()).matrixPart := by
  obtain ⟨_ | entries⟩ := log
  · rfl
  · rfl

end Log

/-- The same place in a tableau with a further column. -/
def Diagonal.widen (d : Diagonal m n) : Diagonal m (n + 1) :=
  ⟨d.index, d.row_lt, Nat.lt_succ_of_lt d.column_lt⟩

/-! ## Reducing without the last column -/

namespace Progress

/-- What a reduction of an augmented tableau has done to the matrix. -/
def matrixPart (s : Progress α m (n + 1)) : Progress α m n :=
  ⟨s.working.matrixPart, s.swaps, s.pivots, s.log.matrixPart⟩

theorem become_matrixPart (s : Progress α m (n + 1)) (M : Tableau α m (n + 1))
    {step : List (List α) → RowStep α}
    (hstep : ∀ t, (step t).matrixPart = step (t.map List.dropLast)) :
    (s.become M step).matrixPart = s.matrixPart.become M.matrixPart step := by
  simp only [matrixPart, become, Log.record_matrixPart, hstep, Tableau.matrixPart_toLists]

theorem bringUp_matrixPart (s : Progress α m (n + 1)) (i p : Fin m) :
    (s.bringUp i p).matrixPart = s.matrixPart.bringUp i p := by
  simp only [bringUp]
  split
  · rfl
  · have hbecome : (s.become (s.working.swapRows i p) (.swap i p)).matrixPart = _ :=
      s.become_matrixPart _ fun _ => rfl
    rw [Tableau.swapRows_matrixPart] at hbecome
    exact congrArg (fun t => { t with swaps := s.swaps + 1 }) hbecome

theorem takePivot_matrixPart (s : Progress α m (n + 1)) (d : Diagonal m n) :
    (s.takePivot d.widen).matrixPart = s.matrixPart.takePivot d := by
  simp only [matrixPart, takePivot, Tableau.matrixPart_apply]
  rfl

theorem eliminate_matrixPart [Sub α] [Mul α] (s : Progress α m (n + 1)) (d : Diagonal m n)
    (factor : α) (r : Fin m) :
    (s.eliminate d.widen factor r).matrixPart = s.matrixPart.eliminate d factor r := by
  rw [eliminate, become_matrixPart _ _ fun _ => rfl, Tableau.subtractRow_matrixPart]
  rfl

/-- The last step shows the solution, and of the matrix what the steps before it show. -/
theorem reduction_log_matrixPart (s : Progress α n (n + 1)) :
    s.reduction.log.matrixPart =
      s.log.matrixPart.record fun _ => .final [] (some s.working.matrixPart.toLists) := by
  rw [reduction, Log.record_matrixPart, Tableau.matrixPart_toLists]
  rfl

variable [Scalar α]

/-- The pivot row is chosen in a column of the matrix. -/
theorem choice_matrixPart (s : Progress α m (n + 1)) (d : Diagonal m n) :
    s.matrixPart.choice d = s.choice d.widen :=
  Tableau.pivotRow_congr fun r _ => s.working.matrixPart_apply r d.column

/-- So is the magnitude that is compared with the tolerance. -/
theorem candidate_matrixPart (s : Progress α m (n + 1)) (d : Diagonal m n) :
    s.matrixPart.candidate d = s.candidate d.widen := by
  rw [candidate, candidate, choice_matrixPart]
  exact congrArg Scalar.abs (s.working.matrixPart_apply _ _)

theorem pivoted_matrixPart (s : Progress α m (n + 1)) (d : Diagonal m n) :
    (s.pivoted d.widen).matrixPart = s.matrixPart.pivoted d := by
  rw [pivoted, pivoted, takePivot_matrixPart, bringUp_matrixPart, choice_matrixPart]
  rfl

theorem normalize_matrixPart (s : Progress α m (n + 1)) (d : Diagonal m n) :
    (s.normalize d.widen).matrixPart = s.matrixPart.normalize d := by
  have hpivot : s.matrixPart.working d.row d.column = s.working d.widen.row d.widen.column :=
    s.working.matrixPart_apply d.row d.column
  rw [normalize, become_matrixPart _ _ fun _ => rfl, Tableau.divideRow_matrixPart, normalize, hpivot]
  rfl

theorem clearRow_matrixPart (d : Diagonal m n) (s : Progress α m (n + 1)) (r : Fin m) :
    (clearRow d.widen s r).matrixPart = clearRow d s.matrixPart r := by
  have hfactor : s.matrixPart.working r d.column = s.working r d.widen.column :=
    s.working.matrixPart_apply r d.column
  rw [clearRow, clearRow, eliminate_matrixPart, hfactor]

/-- **One place**: clearing a column of an augmented tableau clears it in the matrix. -/
theorem clearColumn_matrixPart (d : Diagonal m n) (s : Progress α m (n + 1)) :
    (clearColumn d.widen s).matrixPart = clearColumn d s.matrixPart := by
  rw [clearColumn, clearColumn, ← normalize_matrixPart]
  exact (List.foldl_hom matrixPart fun s r => (clearRow_matrixPart d s r).symm).symm

end Progress

/-- **Whole sweeps**: without its last column, a sweep over an augmented tableau is the sweep over
the matrix. -/
theorem Sweep.run_matrixPart [Scalar α] (tolerance : α) (s : Progress α m (n + 1)) (k : Nat)
    (hm : k ≤ m) (hn : k ≤ n) :
    Alike (fun _ s t => t = s.matrixPart) k
      (run Progress.clearColumn tolerance s k hm (Nat.le_succ_of_le hn))
      (run Progress.clearColumn tolerance s.matrixPart k hm hn) := by
  apply run_view Progress.matrixPart
  · intro k hm hn hn' s
    exact s.candidate_matrixPart ⟨k, hm, hn'⟩
  · intro k hm hn hn' s
    rw [← Progress.pivoted_matrixPart, ← Progress.clearColumn_matrixPart]
    rfl

/-- How reductions with two right-hand sides have ended: with the same pivots, exchanges and matrix,
or with the same fault. What their logs show of the matrix is the same, step by step. -/
def SameMatrixEnding :
    Except (Breakdown Binary64) (Reduction Binary64 n) →
      Except (Breakdown Binary64) (Reduction Binary64 n) → Prop
  | .ok r, .ok r' =>
    r'.pivots = r.pivots ∧ r'.swaps = r.swaps ∧ r'.reduced.matrixPart = r.reduced.matrixPart ∧
      r'.log.steps?.map (List.map Step.matrixPart) = r.log.steps?.map (List.map Step.matrixPart)
  | .error f, .error f' =>
    Fault.ofBreakdown f' = Fault.ofBreakdown f ∧
      f'.log.steps?.map (List.map Step.matrixPart) = f.log.steps?.map (List.map Step.matrixPart)
  | _, _ => False

namespace Tableau

/-- A Gauss-Jordan sweep, seen without the right-hand side. -/
theorem gaussJordanSweep_matrixPart [Scalar α] (A : Tableau α n n) (b : Vector α n) (tolerance : α)
    (log : Log α) :
    Sweep.Alike (fun _ s t => t = s.matrixPart) n (A.gaussJordanSweep b tolerance log)
      (Sweep.run Progress.clearColumn tolerance
        (.start A (log.matrixPart.record fun _ => .initial A.toLists)) n (Nat.le_refl n)
        (Nat.le_refl n)) := by
  have hstart : Progress.matrixPart
      (.start (A.augment b) (log.record fun _ => .initial (A.augment b).toLists)) =
      .start A (log.matrixPart.record fun _ => .initial A.toLists) := by
    simp only [Progress.matrixPart, Progress.start, Log.record_matrixPart, Step.matrixPart,
      ← matrixPart_toLists, augment_matrixPart]
  rw [← hstart]
  exact Sweep.run_matrixPart tolerance _ n (Nat.le_refl n) (Nat.le_refl n)

/-- **The right-hand side does not influence the elimination of the matrix.** Two Gauss-Jordan
reductions of one matrix, with any two right-hand sides, end with the same pivots, the same number
of exchanges and the same columns of the matrix, or with the same fault, and their logs differ in
nothing but the last column and the solution. -/
theorem gaussJordan_ignores_constants (A : Tableau Binary64 n n) (b b' : Vector Binary64 n)
    (tolerance : Binary64) (log : Log Binary64) :
    SameMatrixEnding (A.gaussJordan b tolerance log) (A.gaussJordan b' tolerance log) := by
  have hb := A.gaussJordanSweep_matrixPart b tolerance log
  have hb' := A.gaussJordanSweep_matrixPart b' tolerance log
  rw [gaussJordan, gaussJordan]
  -- both sweeps are, without the last column, the sweep over the matrix alone
  generalize Sweep.run Progress.clearColumn tolerance _ n _ _ = alone at hb hb'
  generalize A.gaussJordanSweep b tolerance log = x at hb ⊢
  generalize A.gaussJordanSweep b' tolerance log = y at hb' ⊢
  cases hb with
  | @complete s _ hs =>
      cases hb' with
      | @complete t _ ht =>
          have hsame : t.matrixPart = s.matrixPart := ht.symm.trans hs
          obtain ⟨hworking, hswaps, hpivots, hlog⟩ := Progress.mk.inj hsame
          refine ⟨hpivots, hswaps, hworking, ?_⟩
          rw [← Log.steps?_matrixPart, ← Log.steps?_matrixPart, Progress.reduction_log_matrixPart,
            Progress.reduction_log_matrixPart, hlog, hworking]
  | @stalled c v s _ hc hs =>
      cases hb' with
      | @stalled _ _ t _ _ ht =>
          have hsame : t.matrixPart = s.matrixPart := ht.symm.trans hs
          obtain ⟨_, _, _, hlog⟩ := Progress.mk.inj hsame
          refine ⟨rfl, ?_⟩
          rw [← Log.steps?_matrixPart, ← Log.steps?_matrixPart, hlog]

end Tableau

end RowReduction
