import Mathlib
import RowReduction.Proofs.Binary64.Range
import RowReduction.Proofs.Elimination.GaussJordanLog
import RowReduction.Proofs.System.CramerRule
import RowReduction.Proofs.System.Recording

/-!
When an answer is finite. A right-hand side that has left the range of binary64 numbers during a
Gauss-Jordan reduction never comes back, and nothing looks for that; so the answer is finite exactly
when the right-hand side is finite in every tableau on the way. Cramer's rule checks its determinants
and not their quotients, so an unknown is finite exactly when its quotient is in range.
-/
namespace RowReduction

variable {m n : Nat}

/-- The right-hand side in an augmented tableau is finite. -/
def Tableau.FiniteLast (M : Tableau Binary64 m (n + 1)) : Prop :=
  ∀ i, (M i (Fin.last n)).isFinite = true

/-- The right-hand side in the tableau that a step shows, the last number of every row, is finite. -/
def Step.ShowsFiniteLast (s : RowStep Binary64) : Prop :=
  ∀ t ∈ s.tableau?, ∀ row ∈ t, ∀ x ∈ row.getLast?, x.isFinite = true

theorem Step.showsFiniteLast_iff {s : RowStep Binary64} {M : Tableau Binary64 m (n + 1)}
    (h : s.tableau? = some M.toLists) : s.ShowsFiniteLast ↔ M.FiniteLast := by
  have hlast (i : Fin m) : (List.ofFn (M i)).getLast? = some (M i (Fin.last n)) := by
    rw [List.ofFn_succ_last, List.getLast?_concat]
  rw [M.toLists_eq_ofFn] at h
  constructor
  · intro hs i
    exact hs _ h _ (List.mem_ofFn.mpr ⟨i, rfl⟩) _ (hlast i)
  · intro hM t ht row hrow x hx
    cases h.symm.trans ht
    obtain ⟨i, rfl⟩ := List.mem_ofFn.mp hrow
    cases (hlast i).symm.trans hx
    exact hM i

/-! ## Gauss-Jordan reduction -/

section Trails

variable {M N : Tableau Binary64 m (n + 1)} {step : RowStep Binary64}
  {steps : List (RowStep Binary64)}

/-- **One operation**: a finite right-hand side was finite before. -/
theorem Replays.finiteLast (h : Replays M step N) (hN : N.FiniteLast) : M.FiniteLast := by
  intro r
  cases h with
  | swap i p h =>
      by_cases hr : r = i
      · have hp := hN p
        rw [h] at hp
        split at hp
        · rename_i hpi
          rwa [hr, ← hpi]
        · rwa [if_pos rfl, ← hr] at hp
      · by_cases hrp : r = p
        · have hi := hN i
          rwa [h, if_pos rfl, ← hrp] at hi
        · have hr' := hN r
          rwa [h, if_neg hr, if_neg hrp] at hr'
  | normalize i pivot h =>
      have hr := hN r
      rw [h] at hr
      split at hr
      · exact Binary64.isFinite_of_div hr
      · exact hr
  | eliminate i target factor h =>
      have hr := hN r
      rw [h] at hr
      split at hr
      · exact (Binary64.isFinite_of_sub hr).1
      · exact hr

/-- **Many operations**: the right-hand side is finite at the end when it has been finite all the
way. -/
theorem Trail.finiteLast_iff (h : Trail M steps N) :
    N.FiniteLast ↔ M.FiniteLast ∧ ∀ step ∈ steps, step.ShowsFiniteLast := by
  induction h with
  | nil => simp
  | @cons M K N step steps hstep _ ih =>
      have hshows : step.ShowsFiniteLast ↔ K.FiniteLast := Step.showsFiniteLast_iff hstep.tableau?_eq
      rw [ih, List.forall_mem_cons, hshows]
      constructor
      · rintro ⟨hK, hsteps⟩
        exact ⟨hstep.finiteLast hK, hK, hsteps⟩
      · rintro ⟨_, hK, hsteps⟩
        exact ⟨hK, hsteps⟩

end Trails

/-- **Gauss-Jordan answers** are finite exactly when the right-hand side is finite in every tableau
that the log shows. -/
theorem Tableau.gaussJordan_finite_iff {A : Tableau Binary64 n n} {b : Vector Binary64 n}
    {tolerance : Binary64} {r : Reduction Binary64 n}
    (h : A.gaussJordan b tolerance .empty = .ok r) :
    ∃ steps, r.log.steps? = some steps ∧
      ((∀ x ∈ r.solution.toList, x.isFinite = true) ↔ ∀ step ∈ steps, step.ShowsFiniteLast) := by
  obtain ⟨blocks, hblocks, hsteps, _⟩ := gaussJordan_blocks h
  have htrail := hblocks.trail ClearsAround.trail
  refine ⟨_, hsteps.steps?_eq_some, ?_⟩
  have hinitial : Step.ShowsFiniteLast (.initial (A.augment b).toLists) ↔
      (A.augment b).FiniteLast := Step.showsFiniteLast_iff rfl
  have hfinal : Step.ShowsFiniteLast (.final r.solution.toList (some r.reduced.toLists)) ↔
      r.reduced.FiniteLast := Step.showsFiniteLast_iff rfl
  have hanswer : (∀ x ∈ r.solution.toList, x.isFinite = true) ↔ r.reduced.FiniteLast := by
    rw [gaussJordan_solution_eq h, column, Vector.toList_ofFn, List.forall_mem_ofFn_iff, FiniteLast]
  rw [hanswer, List.cons_append, List.forall_mem_cons, List.forall_mem_append,
    List.forall_mem_singleton, hinitial, hfinal, ← and_assoc, ← htrail.finiteLast_iff]
  exact (and_self_iff).symm

namespace LinearSystem

variable {s : LinearSystem} {routines : MatrixRoutines} {tolerance : Binary64} {recording : Bool}
  {x : Solution}

theorem solve_gaussJordan_of_ok {r : Reduction Binary64 s.matrix.order}
    (h : s.matrix.entries.gaussJordan s.constants tolerance (.start recording) = .ok r) :
    s.solve routines .gaussJordan tolerance recording =
      .ok (s.solution routines tolerance r.solution (.gaussJordan r.swaps r.pivots) r.log) := by
  simp only [solve, h]

/-- A solution by Gauss-Jordan reduction comes from a completed reduction. -/
theorem solve_gaussJordan_eq_ok (h : s.solve routines .gaussJordan tolerance recording = .ok x) :
    ∃ r, s.matrix.entries.gaussJordan s.constants tolerance (.start recording) = .ok r ∧
      x = s.solution routines tolerance r.solution (.gaussJordan r.swaps r.pivots) r.log := by
  cases hr : s.matrix.entries.gaussJordan s.constants tolerance (.start recording) with
  | error f =>
      simp only [solve, hr] at h
      cases h
  | ok r => exact ⟨r, rfl, Except.ok.inj (h.symm.trans (solve_gaussJordan_of_ok hr))⟩

/-- What is solved without a log is solved with one. -/
theorem solve_recorded {method : Method}
    (h : s.solve routines method tolerance recording = .ok x) :
    ∃ y, s.solve routines method tolerance true = .ok y ∧ y.untraced = x.untraced := by
  have hoff := s.solve_untraced routines method tolerance recording
  rw [h, s.solve_untraced routines method tolerance true] at hoff
  cases hy : s.solve routines method tolerance true with
  | error f =>
      rw [hy] at hoff
      exact nomatch hoff
  | ok y =>
      rw [hy] at hoff
      exact ⟨y, rfl, Except.ok.inj hoff⟩

theorem solve_gaussJordan_finite_iff
    (h : s.solve routines .gaussJordan tolerance recording = .ok x) :
    ∃ y steps, s.solve routines .gaussJordan tolerance true = .ok y ∧ y.untraced = x.untraced ∧
      y.trace = some steps ∧
      ((∀ u ∈ x.unknowns.toList, u.isFinite = true) ↔ ∀ step ∈ steps, step.ShowsFiniteLast) := by
  obtain ⟨y, hy, hsame⟩ := solve_recorded h
  obtain ⟨r, hr, rfl⟩ := solve_gaussJordan_eq_ok hy
  obtain ⟨steps, hsteps, hfinite⟩ := Tableau.gaussJordan_finite_iff hr
  have hunknowns : r.solution.toList = x.unknowns.toList :=
    congrArg (fun z : Solution => z.unknowns.toList) hsame
  rw [← hunknowns]
  exact ⟨_, steps, hy, hsame, hsteps, hfinite⟩

/-- **Cramer's answers** are quotients of finite determinants and never not-a-number; an unknown is
finite exactly when the exact quotient is in range. -/
theorem solve_cramer_finite_iff (htol : Tolerance.IsUsable tolerance)
    (h : s.solve routines .cramer tolerance recording = .ok x) :
    let D := (s.matrix.determinant tolerance recording).value
    let E i := ((s.replaceColumn i).determinant tolerance recording).value
    D.isFinite = true ∧ (∀ i, (E i).isFinite = true) ∧
      x.unknowns.toList = List.ofFn (fun i => E i / D) ∧
      ∀ i, (E i / D).isNaN = false ∧
        ((E i / D).isFinite = true ↔ (E i).units.natAbs < Binary64.overflow * D.units.natAbs) := by
  intro D E
  obtain ⟨hlt, hD, hE, rfl⟩ := solve_cramer_of_ok htol h
  have hzero : D.isZero = false := htol.isZero_of_lt_false hlt
  refine ⟨hD, hE, s.cramerSolution_unknowns routines tolerance recording, fun i => ⟨?_, ?_⟩⟩
  · exact Binary64.isNaN_div (hE i) hD hzero
  · exact Binary64.isFinite_div_iff (hE i) hD hzero

/-- **When an answer is finite.** Gauss-Jordan reduction has found finite unknowns exactly when the
right-hand side is finite in every tableau that the same call shows with a log. Cramer's rule
divides finite determinants, and an unknown is finite exactly when the exact quotient of its two
determinants is below `2 ^ 1024 - 2 ^ 970` in magnitude; it is never not-a-number. -/
theorem solve_finite_iff {source : SystemSource} {b : Value} (hsource : source.resolve b = .ok s)
    (htol : Tolerance.IsUsable tolerance) (routines : MatrixRoutines) (recording : Bool) :
    (∀ x, RowReduction.solve routines source b
        ⟨.text "gauss_jordan", .bool recording, .float tolerance⟩ = .ok x →
      ∃ y steps, RowReduction.solve routines source b
          ⟨.text "gauss_jordan", .bool true, .float tolerance⟩ = .ok y ∧
        y.untraced = x.untraced ∧ y.trace = some steps ∧
        ((∀ u ∈ x.unknowns.toList, u.isFinite = true) ↔
          ∀ step ∈ steps, step.ShowsFiniteLast)) ∧
    (∀ x, RowReduction.solve routines source b
        ⟨.text "cramer", .bool recording, .float tolerance⟩ = .ok x →
      let D := (s.matrix.determinant tolerance recording).value
      let E i := ((s.replaceColumn i).determinant tolerance recording).value
      D.isFinite = true ∧ (∀ i, (E i).isFinite = true) ∧
        x.unknowns.toList = List.ofFn (fun i => E i / D) ∧
        ∀ i, (E i / D).isNaN = false ∧
          ((E i / D).isFinite = true ↔
            (E i).units.natAbs < Binary64.overflow * D.units.natAbs)) := by
  constructor
  · intro x hx
    have hcall (r : Bool) : RowReduction.solve routines source b
        ⟨.text "gauss_jordan", .bool r, .float tolerance⟩ =
          s.solve routines .gaussJordan tolerance r :=
      solve_eq_solve hsource htol .gaussJordan
    rw [hcall] at hx ⊢
    exact solve_gaussJordan_finite_iff hx
  · intro x hx
    have hcall : RowReduction.solve routines source b
        ⟨.text "cramer", .bool recording, .float tolerance⟩ =
          s.solve routines .cramer tolerance recording :=
      solve_eq_solve hsource htol .cramer
    rw [hcall] at hx
    exact solve_cramer_finite_iff htol hx

/-- The sum of two unknowns and their difference: `x + y = 1.5e308` and `x - y = -1.5e308`. -/
def sumAndDifference : LinearSystem where
  matrix :=
    { order := 2
      entries := ⟨#v[#v[.one, .one], #v[.one, .ofInt (-1)]]⟩
      order_pos := Nat.two_pos
      finite := by decide +kernel }
  constants := #v[.ofDecimal false 15 307, .ofDecimal true 15 307]
  finite := by decide +kernel

/-- One equation: `1e-10 x = 1e300`. -/
def steepEquation : LinearSystem where
  matrix :=
    { order := 1
      entries := ⟨#v[#v[.ofDecimal false 1 (-10)]]⟩
      order_pos := by decide
      finite := by decide +kernel }
  constants := #v[.ofDecimal false 1 300]
  finite := by decide +kernel

/-- The elimination in the first column doubles `-1.5e308`, which is out of range. -/
theorem solve_sumAndDifference : ∃ x, RowReduction.solve .hardware (.system sumAndDifference) .none
      ⟨.text "gauss_jordan", .bool false, .float Tolerance.pivot⟩ = .ok x ∧
    x.unknowns.toList = [.infinite true, .infinite false] := by
  have hreduction : (sumAndDifference.matrix.entries.gaussJordan sumAndDifference.constants
      Tolerance.pivot (.start false)).toOption.map (fun r => r.solution.toList) =
        some [.infinite true, .infinite false] := by decide +kernel
  obtain ⟨r, hr, hsolution⟩ := eq_ok_of_toOption_map_eq_some hreduction
  refine ⟨_, (solve_eq_solve rfl (by decide +kernel) .gaussJordan).trans
    (solve_gaussJordan_of_ok hr), hsolution⟩

/-- The quotient of the two determinants is `1e310`. -/
theorem solve_steepEquation : ∃ x, RowReduction.solve .hardware (.system steepEquation) .none
      ⟨.text "cramer", .bool false, .float Tolerance.pivot⟩ = .ok x ∧
    x.unknowns.toList = [.infinite false] := by
  have htol : Tolerance.IsUsable Tolerance.pivot := by decide +kernel
  have hsolved : steepEquation.solve .hardware .cramer Tolerance.pivot false = .ok _ :=
    solve_cramer_of_columns_finite htol (by decide +kernel) (by decide +kernel) (by decide +kernel)
  refine ⟨_, (solve_eq_solve rfl htol .cramer).trans hsolved, ?_⟩
  rw [cramerSolution_unknowns]
  decide +kernel

/-- **Answers out of range are not reported**: each method returns an infinite unknown for finite
numbers, and the system of the first has the solution `x = 0`, `y = 1.5e308`. -/
theorem solve_returns_infinite_unknowns :
    (∃ x, RowReduction.solve .hardware (.system sumAndDifference) .none
        ⟨.text "gauss_jordan", .bool false, .float Tolerance.pivot⟩ = .ok x ∧
      ∃ u ∈ x.unknowns.toList, u.isFinite = false) ∧
    ∃ x, RowReduction.solve .hardware (.system steepEquation) .none
        ⟨.text "cramer", .bool false, .float Tolerance.pivot⟩ = .ok x ∧
      ∃ u ∈ x.unknowns.toList, u.isFinite = false := by
  obtain ⟨x, hx, hunknowns⟩ := solve_sumAndDifference
  obtain ⟨y, hy, hunknown⟩ := solve_steepEquation
  refine ⟨⟨x, hx, .infinite true, ?_, rfl⟩, ⟨y, hy, .infinite false, ?_, rfl⟩⟩
  · rw [hunknowns]
    exact List.mem_cons_self
  · rw [hunknown]
    exact List.mem_cons_self

/-- The log of the one answer shows where the right-hand side is lost; the other answer is a quotient
out of range. -/
theorem solve_finite_iff_of_overflow :
    (SystemSource.system sumAndDifference).resolve .none = .ok sumAndDifference ∧
      (SystemSource.system steepEquation).resolve .none = .ok steepEquation ∧
      Tolerance.IsUsable Tolerance.pivot ∧
      (∃ y steps, RowReduction.solve .hardware (.system sumAndDifference) .none
          ⟨.text "gauss_jordan", .bool true, .float Tolerance.pivot⟩ = .ok y ∧
        y.trace = some steps ∧ ¬ ∀ step ∈ steps, step.ShowsFiniteLast) ∧
      ∃ i, Binary64.overflow * (steepEquation.matrix.determinant Tolerance.pivot
          false).value.units.natAbs ≤
        ((steepEquation.replaceColumn i).determinant Tolerance.pivot false).value.units.natAbs := by
  have htol : Tolerance.IsUsable Tolerance.pivot := by decide +kernel
  have hsource (s : LinearSystem) : (SystemSource.system s).resolve .none = .ok s := rfl
  refine ⟨rfl, rfl, htol, ?_, ?_⟩
  · obtain ⟨x, hx, hunknowns⟩ := solve_sumAndDifference
    obtain ⟨y, steps, hy, _, hsteps, hfinite⟩ :=
      (solve_finite_iff (hsource _) htol .hardware false).1 x hx
    refine ⟨y, steps, hy, hsteps, fun hall => ?_⟩
    have hunknown := hfinite.mpr hall (.infinite true) (by rw [hunknowns]; exact List.mem_cons_self)
    exact nomatch hunknown
  · obtain ⟨x, hx, hunknown⟩ := solve_steepEquation
    obtain ⟨_, _, hquotients, hrange⟩ := (solve_finite_iff (hsource _) htol .hardware false).2 x hx
    have hmember : Binary64.infinite false ∈ x.unknowns.toList := by
      rw [hunknown]
      exact List.mem_cons_self
    rw [hquotients] at hmember
    obtain ⟨i, hi⟩ := List.mem_ofFn.mp hmember
    refine ⟨i, Nat.not_lt.mp fun hlt => ?_⟩
    have hfinite := (hrange i).2.mpr hlt
    exact nomatch (congrArg Binary64.isFinite hi).symm.trans hfinite

end LinearSystem

end RowReduction
