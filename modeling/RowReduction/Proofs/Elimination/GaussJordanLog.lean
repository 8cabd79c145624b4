import RowReduction.Exact.Rational
import RowReduction.Proofs.Elimination.Replay
import RowReduction.Proofs.Outcome

/-!
The log of a Gauss-Jordan reduction. Each place leaves a block: the exchange that brings its pivot
row up, if there is one, the division of that row by the pivot, and the elimination of the pivot
column in every other row from top to bottom. The whole log is the augmented tableau, the blocks of
all places, and the solution; a reduction that breaks down has logged the blocks of the places
before, and nothing about the column where it stops.
-/
namespace RowReduction

variable {α : Type} [Scalar α] {m n : Nat}

/-- The steps that clear a column above and below its pivot: the pivot row is divided by the pivot,
and then every other row loses its entry in the column times the pivot row. -/
inductive ClearsAround (d : Diagonal m n) (K : Tableau α m n) :
    List (RowStep α) → Tableau α m n → Prop
  | intro {L N : Tableau α m n} {eliminations : List (RowStep α)}
      (divides : Replays K (.normalize d.index (K d.row d.column) L.toLists) L)
      (eliminates : Eliminates d (fun M r => M r d.column) (fun _ => false) (rowsBesides d.row) L
        eliminations N) :
      ClearsAround d K (.normalize d.index (K d.row d.column) L.toLists :: eliminations) N

theorem rowsBesides_length (i : Fin m) : (rowsBesides i).length = m - 1 := by
  have herase : rowsBesides i = (List.finRange m).erase i := by
    rw [(List.nodup_finRange m).erase_eq_filter]
    exact List.filter_congr fun r _ => by by_cases h : r = i <;> simp [h]
  rw [herase, List.length_erase_of_mem (List.mem_finRange i), List.length_finRange]

namespace ClearsAround

variable {d : Diagonal m n} {K N : Tableau α m n} {steps : List (RowStep α)}

theorem trail (h : ClearsAround d K steps N) : Trail K steps N := by
  obtain ⟨divides, eliminates⟩ := h
  exact .cons divides eliminates.trail

/-- Clearing a column takes one division and one elimination for every other row. -/
theorem counts (h : ClearsAround d K steps N) :
    steps.length = m ∧ steps.filterMap Step.exchange? = [] ∧
      steps.filterMap Step.divisor? = [K d.row d.column] := by
  obtain ⟨_, eliminates⟩ := h
  obtain ⟨hexchange, hdivisor⟩ := eliminates.only_eliminations
  have hrow : 0 < m := Nat.zero_lt_of_lt d.row_lt
  refine ⟨?_, hexchange, congrArg (_ :: ·) hdivisor⟩
  rw [List.length_cons, eliminates.length, rowsBesides_length]
  omega

end ClearsAround

/-- Clearing above and below takes the steps that it should. -/
theorem Progress.clearColumn_takes :
    Takes (α := α) (m := m) (n := n) ClearsAround clearColumn where
  steps := by
    intro d s
    obtain ⟨eliminations, heliminates, hlog⟩ : ∃ eliminations,
        Eliminates d (fun M r => M r d.column) (fun _ => false) (rowsBesides d.row)
          (s.normalize d).working eliminations (s.clearColumn d).working ∧
        (s.normalize d).log.Extended eliminations (s.clearColumn d).log :=
      foldl_eliminates (fun _ _ _ => rfl) (not_mem_rowsBesides d.row) (s.normalize d) rfl
    refine ⟨_ :: eliminations, .intro (s.normalize_replays d) heliminates, ?_⟩
    exact (s.log.extended_record _).trans hlog
  no_exchange := fun h => h.counts.2.1
  swaps := clearColumn_swaps
  pivots := clearColumn_pivots

/-- **The length of the blocks**: besides the exchanges there is a step for every row at every
place, and the pivots that rows are divided by are those of the sweep. -/
theorem Blocks.counts {S N : Tableau α m n} {k : Nat} {pivots : List α}
    {steps : List (RowStep α)} (h : Blocks ClearsAround S k pivots steps N) :
    steps.length = (steps.filterMap Step.exchange?).length + k * m ∧
      steps.filterMap Step.divisor? = pivots := by
  induction h with
  | start => simp
  | place before up clears ih =>
      obtain ⟨hlength, hdivisors⟩ := ih
      obtain ⟨hexchanges, hexchangeDivisors⟩ := up.exchanges
      obtain ⟨hclearedLength, hclearedExchanges, hclearedDivisors⟩ := clears.counts
      simp only [List.length_append, List.filterMap_append, hlength, hdivisors, hexchanges,
        hexchangeDivisors, hclearedLength, hclearedExchanges, hclearedDivisors, Nat.succ_mul,
        List.nil_append, List.length_nil, and_true]
      omega

namespace Tableau

/-- An answer comes with the blocks of all places, between the augmented tableau and the solution. -/
theorem gaussJordan_blocks {A : Tableau α n n} {b : Vector α n} {tolerance : α} {log : Log α}
    {r : Reduction α n} (h : A.gaussJordan b tolerance log = .ok r) :
    ∃ blocks, Blocks ClearsAround (A.augment b) n r.pivots blocks r.reduced ∧
      log.Extended (.initial (A.augment b).toLists :: blocks ++
        [.final r.solution.toList (some r.reduced.toLists)]) r.log ∧
      (blocks.filterMap Step.exchange?).length = r.swaps := by
  obtain ⟨s, hsweep, rfl⟩ := gaussJordan_of_ok h
  obtain ⟨blocks, hblocks, hlog, hswaps⟩ := Sweep.run_blocks Progress.clearColumn_takes hsweep
  have hinitial := log.extended_record fun _ => .initial (A.augment b).toLists
  exact ⟨blocks, hblocks, (hinitial.trans hlog).trans (s.log.extended_record _), hswaps⟩

/-- **The log of a Gauss-Jordan reduction is complete and can be replayed.** When the reduction is
complete, what it records is the augmented tableau, the blocks of all `n` places, which lead from
there to the reduced tableau, and the solution. When it breaks down in a column, it has recorded the
augmented tableau and the blocks of the columns before, and nothing else; the tableau that these
lead to has no candidate in that column that reaches the tolerance. -/
theorem gaussJordan_log (A : Tableau α n n) (b : Vector α n) (tolerance : α) (log : Log α) :
    match A.gaussJordan b tolerance log with
    | .ok r => ∃ blocks,
        let steps := .initial (List.ofFn fun i => List.ofFn (A.augment b i)) :: blocks ++
          [.final r.solution.toList (some (List.ofFn fun i => List.ofFn (r.reduced i)))]
        Blocks ClearsAround (A.augment b) n r.pivots blocks r.reduced ∧
        Trail (A.augment b) blocks r.reduced ∧
        log.Extended steps r.log ∧
        (∀ i : Fin n, r.solution.get i = r.reduced i (Fin.last n)) ∧
        (steps.filterMap Step.exchange?).length = r.swaps ∧
        steps.filterMap Step.divisor? = r.pivots ∧
        steps.length = 2 + r.swaps + n + n * (n - 1)
    | .error f => ∃ (d : Diagonal n (n + 1)) (pivots : List α) (blocks : List (RowStep α))
          (M : Tableau α n (n + 1)),
        f.column = d.index ∧
        Blocks ClearsAround (A.augment b) d.index pivots blocks M ∧
        Trail (A.augment b) blocks M ∧
        log.Extended (.initial (List.ofFn fun i => List.ofFn (A.augment b i)) :: blocks) f.log ∧
        f.candidate = Scalar.abs (M (M.pivotRow d.row d.column) d.column) ∧
        Scalar.lt f.candidate tolerance = true := by
  rw [gaussJordan]
  simp only [← toLists_eq_ofFn]
  cases hsweep : A.gaussJordanSweep b tolerance log with
  | complete s =>
      obtain ⟨blocks, hblocks, hlog, hswaps⟩ :=
        gaussJordan_blocks (show A.gaussJordan b tolerance log = .ok s.reduction by
          rw [gaussJordan, hsweep])
      obtain ⟨hlength, hdivisors⟩ := hblocks.counts
      refine ⟨blocks, hblocks, hblocks.trail ClearsAround.trail, hlog,
        fun i => s.working.column_getElem i (Fin.last n), ?_, ?_, ?_⟩
      · rw [List.filterMap_append, List.length_append]
        exact hswaps
      · rw [List.filterMap_append]
        exact (List.append_nil _).trans hdivisors
      · -- every place takes a division and an elimination in each of the other rows
        have hsteps : n * n = n + n * (n - 1) := by
          rw [Nat.mul_sub_one, Nat.add_sub_cancel' (Nat.le_mul_self n)]
        simp only [List.cons_append, List.length_cons, List.length_append, List.length_nil]
        omega
  | stalled c v s =>
      obtain ⟨d, rfl, rfl, hlt, hbefore⟩ := Sweep.run_stalled _ _ _ hsweep
      obtain ⟨blocks, hblocks, hlog, _⟩ := Sweep.run_blocks Progress.clearColumn_takes hbefore
      have hinitial := log.extended_record fun _ => .initial (A.augment b).toLists
      exact ⟨d, s.pivots, blocks, s.working, rfl, hblocks, hblocks.trail ClearsAround.trail,
        hinitial.trans hlog, rfl, hlt⟩

/-- The equations `2 y = 4` and `x + y = 3`. -/
def swappedEquations : Tableau ℚ 2 2 := ⟨#v[#v[0, 2], #v[1, 1]]⟩

/-- The log of these equations, with every tableau in full. -/
theorem gaussJordan_log_two :
    ∃ r blocks, swappedEquations.gaussJordan #v[4, 3] 1 .empty = .ok r ∧
      r.log.steps? = some (.initial [[0, 2, 4], [1, 1, 3]] :: blocks ++
        [.final [1, 2] (some [[1, 0, 1], [0, 1, 2]])]) ∧
      blocks.map (fun s => (s.kind, s.tableau?)) =
        [("swap", some [[1, 1, 3], [0, 2, 4]]), ("normalize", some [[1, 1, 3], [0, 2, 4]]),
          ("eliminate", some [[1, 1, 3], [0, 2, 4]]), ("normalize", some [[1, 1, 3], [0, 1, 2]]),
          ("eliminate", some [[1, 0, 1], [0, 1, 2]])] := by
  have hsolution : (swappedEquations.gaussJordan #v[4, 3] 1 .empty).toOption.map
      (·.solution.toList) = some [1, 2] := by decide +kernel
  have hreduced : (swappedEquations.gaussJordan #v[4, 3] 1 .empty).toOption.map
      (·.reduced.toLists) = some [[1, 0, 1], [0, 1, 2]] := by decide +kernel
  have hsteps : (swappedEquations.gaussJordan #v[4, 3] 1 .empty).toOption.map
      (fun r => (r.log.steps.drop 1).dropLast.map fun s => (s.kind, s.tableau?)) = some
        [("swap", some [[1, 1, 3], [0, 2, 4]]), ("normalize", some [[1, 1, 3], [0, 2, 4]]),
          ("eliminate", some [[1, 1, 3], [0, 2, 4]]), ("normalize", some [[1, 1, 3], [0, 1, 2]]),
          ("eliminate", some [[1, 0, 1], [0, 1, 2]])] := by decide +kernel
  obtain ⟨r, hr, hsolution⟩ := eq_ok_of_toOption_map_eq_some hsolution
  rw [hr] at hreduced hsteps
  simp only [Except.toOption, Option.map_some, Option.some.injEq] at hreduced hsteps
  have hlog := gaussJordan_log swappedEquations #v[4, 3] 1 .empty
  rw [hr] at hlog
  obtain ⟨blocks, _, _, hlog, _⟩ := hlog
  have hall : r.log.steps? = _ := hlog.steps?_eq_some
  have hinitial : (List.ofFn fun i => List.ofFn (swappedEquations.augment #v[4, 3] i)) =
      [[0, 2, 4], [1, 1, 3]] := by decide +kernel
  rw [← toLists_eq_ofFn r.reduced, hinitial, hsolution, hreduced] at hall
  refine ⟨r, blocks, hr, hall, ?_⟩
  rw [← hsteps, Log.steps, hall]
  simp

end Tableau

end RowReduction
