import Mathlib
import RowReduction.Proofs.Binary64.Order
import RowReduction.Proofs.Elimination.Cramer
import RowReduction.Proofs.System.Calls
import RowReduction.System.Hardware

/-!
Cramer's rule against the determinants that callers can compute themselves. Solving by the rule
comes to the determinant of the matrix and the determinants with one column replaced: their values
decide how the call ends and what the unknowns are, and their logs are the parts of its log.
-/
namespace RowReduction

/-- A number whose magnitude is not below a usable tolerance is not zero. -/
theorem Tolerance.IsUsable.isZero_of_lt_false {tolerance d : Binary64} (htol : IsUsable tolerance)
    (h : d.abs.lt tolerance = false) : d.isZero = false :=
  Binary64.isZero_eq_false_of_abs_not_lt h htol.2

/-- The message of a fault opens with the determinant of the named matrix. -/
def Fault.Names (f : Fault) (label : String) : Prop :=
  ∃ rest, f.message = "det(" ++ label ++ ") = " ++ rest

private theorem exists_eq_append (x t u v : String) : ∃ rest, x ++ t ++ u ++ v = x ++ rest :=
  ⟨t ++ u ++ v, by simp only [String.append_assoc]⟩

theorem Fault.determinantRange_names (replaced : Option Nat) (d : Binary64) :
    (determinantRange replaced d).Names (matrixLabel replaced) :=
  exists_eq_append ("det(" ++ matrixLabel replaced ++ ") = ") d.shortestText _ _

/-- A determinant has the same value with and without a log. -/
theorem SquareMatrix.determinant_value (m : SquareMatrix) (tolerance : Binary64)
    (recording : Bool) :
    (m.determinant tolerance recording).value = (m.determinant tolerance false).value :=
  m.entries.triangulate_value_unlogged tolerance (.start recording)

theorem SquareMatrix.determinant_singularColumn (m : SquareMatrix) (tolerance : Binary64)
    (recording : Bool) :
    (m.determinant tolerance recording).singularColumn =
      (m.determinant tolerance false).singularColumn :=
  m.entries.triangulate_singularColumn_unlogged tolerance (.start recording)

/-- A determinant with a log has steps to show. -/
theorem SquareMatrix.determinant_trace (m : SquareMatrix) (tolerance : Binary64) :
    (m.determinant tolerance true).trace =
      some (m.entries.triangulate tolerance .empty).log.steps :=
  (m.entries.triangulate_grows tolerance .empty).steps?_eq_some

namespace LinearSystem

/-- The matrix of a system with column `i` replaced by the right-hand side. -/
def replaceColumn (s : LinearSystem) (i : Fin s.matrix.order) : SquareMatrix where
  order := s.matrix.order
  entries := s.matrix.entries.setColumn i s.constants
  order_pos := s.matrix.order_pos
  finite := by
    intro r j
    rw [Tableau.setColumn_apply]
    split
    · exact s.finite r
    · exact s.matrix.finite r j

/-- The log of Cramer's rule, given the determinant `D` of the matrix, the determinants `E` with one
column replaced, and the logs of all of them. The matrices are shown entry by entry. -/
def cramerSteps (s : LinearSystem) (D : Binary64) (E : Fin s.matrix.order → Binary64)
    (main : List (RowStep Binary64)) (minor : Fin s.matrix.order → List (RowStep Binary64)) :
    List (RowStep Binary64) :=
  .determinantValue D (some (List.ofFn fun r => List.ofFn (s.matrix.entries r))) main ::
    (List.finRange s.matrix.order).map (fun i =>
      .unknown i (E i) D
        (List.ofFn fun r => List.ofFn fun j =>
          if j = i then s.constants[r] else s.matrix.entries r j)
        (minor i) (E i / D)) ++
    [.final (List.ofFn fun i => E i / D) none]

/-- **How Cramer's rule ends**: the outcome of solving a system by the rule, where `D r` is the
determinant of the matrix and `E r i` that of the matrix with column `i` replaced, with a log if `r`
and without one otherwise. -/
structure FollowsCramer (s : LinearSystem) (tolerance : Binary64) (recording : Bool)
    (D : Bool → DeterminantSolution) (E : Bool → Fin s.matrix.order → DeterminantSolution)
    (outcome : Except Fault Solution) : Prop where
  singular_iff : (∃ f, outcome = .error f ∧ f.kind = .singularMatrix) ↔
    (D false).value.abs.lt tolerance = true
  singular : (D false).value.abs.lt tolerance = true →
    outcome = .error (.zeroDeterminant (D false).value tolerance (D false).singularColumn)
  matrixOutOfRange : (D false).value.abs.lt tolerance = false →
    (D false).value.isFinite = false →
    ∃ f, outcome = .error f ∧ f = .determinantRange none (D false).value ∧
      f.kind = .numerical ∧ f.Names "A"
  columnOutOfRange : (D false).value.abs.lt tolerance = false →
    (D false).value.isFinite = true → ∀ i, (E false i).value.isFinite = false →
    (∀ j < i, (E false j).value.isFinite = true) →
    ∃ f, outcome = .error f ∧ f = .determinantRange (some i) (E false i).value ∧
      f.kind = .numerical ∧ f.Names ("A" ++ toString (i.val + 1))
  solved : (D false).value.abs.lt tolerance = false → (D false).value.isFinite = true →
    (∀ i, (E false i).value.isFinite = true) →
    ∃ x, outcome = .ok x ∧ x.system = s ∧
      x.unknowns.toList = List.ofFn (fun i => (E false i).value / (D false).value) ∧
      x.effort = .cramer (s.order + 1) (D false).value ∧
      (recording = false → x.trace = none) ∧
      (recording = true → ∃ main minor, (D true).trace = some main ∧
        (∀ i, (E true i).trace = some (minor i)) ∧
        x.trace = some (s.cramerSteps (D false).value (fun i => (E false i).value) main minor))

variable {s : LinearSystem} {routines : MatrixRoutines} {tolerance : Binary64} {recording : Bool}

/-- The solution that Cramer's rule finds when all determinants can be divided. -/
def cramerSolution (s : LinearSystem) (routines : MatrixRoutines) (tolerance : Binary64)
    (recording : Bool) : Solution :=
  let q := s.matrix.entries.quotients s.constants tolerance recording
  s.solution routines tolerance q.solution (.cramer (s.order + 1) q.determinant) q.log

theorem solve_cramer_of_lt
    (hlt : (s.matrix.determinant tolerance recording).value.abs.lt tolerance = true) :
    s.solve routines .cramer tolerance recording =
      .error (.zeroDeterminant (s.matrix.determinant tolerance recording).value tolerance
        (s.matrix.determinant tolerance recording).singularColumn) := by
  have hcramer : s.matrix.entries.cramer s.constants tolerance recording =
      .error (.singular _ tolerance _) := Tableau.cramer_of_lt hlt
  simp only [solve, hcramer]
  rfl

theorem solve_cramer_of_not_finite
    (hlt : (s.matrix.determinant tolerance recording).value.abs.lt tolerance = false)
    (hfinite : (s.matrix.determinant tolerance recording).value.isFinite = false) :
    s.solve routines .cramer tolerance recording =
      .error (.determinantRange none (s.matrix.determinant tolerance recording).value) := by
  have hcramer : s.matrix.entries.cramer s.constants tolerance recording =
      .error (.notFinite none _) := Tableau.cramer_of_not_finite hlt hfinite
  simp only [solve, hcramer]
  rfl

theorem solve_cramer_of_finite (htol : Tolerance.IsUsable tolerance)
    (hlt : (s.matrix.determinant tolerance recording).value.abs.lt tolerance = false)
    (hfinite : (s.matrix.determinant tolerance recording).value.isFinite = true) :
    s.solve routines .cramer tolerance recording =
      match s.matrix.entries.outOfRange? s.constants tolerance recording
          (List.finRange s.matrix.order) with
      | some i => .error (.determinantRange (some i)
          ((s.replaceColumn i).determinant tolerance recording).value)
      | none => .ok (s.cramerSolution routines tolerance recording) := by
  have hcramer : s.matrix.entries.cramer s.constants tolerance recording = _ :=
    Tableau.cramer_of_finite hlt hfinite (htol.isZero_of_lt_false hlt)
  simp only [solve, hcramer]
  cases s.matrix.entries.outOfRange? s.constants tolerance recording
      (List.finRange s.matrix.order) with
  | some i => rfl
  | none => rfl

/-- The first column out of range is reported. -/
theorem solve_cramer_of_column_not_finite (htol : Tolerance.IsUsable tolerance)
    (hlt : (s.matrix.determinant tolerance recording).value.abs.lt tolerance = false)
    (hfinite : (s.matrix.determinant tolerance recording).value.isFinite = true)
    {i : Fin s.matrix.order}
    (hi : ((s.replaceColumn i).determinant tolerance recording).value.isFinite = false)
    (hbefore : ∀ j < i,
      ((s.replaceColumn j).determinant tolerance recording).value.isFinite = true) :
    s.solve routines .cramer tolerance recording = .error (.determinantRange (some i)
      ((s.replaceColumn i).determinant tolerance recording).value) := by
  have hfirst : s.matrix.entries.outOfRange? s.constants tolerance recording
      (List.finRange s.matrix.order) = some i :=
    Tableau.outOfRange?_eq_some_iff.mpr ⟨hi, hbefore⟩
  rw [solve_cramer_of_finite htol hlt hfinite, hfirst]

/-- With no column out of range the quotients are the answer. -/
theorem solve_cramer_of_columns_finite (htol : Tolerance.IsUsable tolerance)
    (hlt : (s.matrix.determinant tolerance recording).value.abs.lt tolerance = false)
    (hfinite : (s.matrix.determinant tolerance recording).value.isFinite = true)
    (hcolumns : ∀ i, ((s.replaceColumn i).determinant tolerance recording).value.isFinite = true) :
    s.solve routines .cramer tolerance recording =
      .ok (s.cramerSolution routines tolerance recording) := by
  have hnone : s.matrix.entries.outOfRange? s.constants tolerance recording
      (List.finRange s.matrix.order) = none :=
    Tableau.outOfRange?_eq_none_iff.mpr hcolumns
  rw [solve_cramer_of_finite htol hlt hfinite, hnone]

/-- Only a determinant below the tolerance makes a system singular. -/
theorem solve_cramer_singular_iff (htol : Tolerance.IsUsable tolerance) :
    (∃ f, s.solve routines .cramer tolerance recording = .error f ∧ f.kind = .singularMatrix) ↔
      (s.matrix.determinant tolerance recording).value.abs.lt tolerance = true := by
  constructor
  · rintro ⟨f, hf, hkind⟩
    cases hlt : (s.matrix.determinant tolerance recording).value.abs.lt tolerance with
    | true => rfl
    | false =>
        cases hfinite : (s.matrix.determinant tolerance recording).value.isFinite with
        | false =>
            rw [solve_cramer_of_not_finite hlt hfinite] at hf
            cases hf
            exact nomatch hkind
        | true =>
            rw [solve_cramer_of_finite htol hlt hfinite] at hf
            split at hf
            · cases hf
              exact nomatch hkind
            · exact nomatch hf
  · intro hlt
    exact ⟨_, solve_cramer_of_lt hlt, rfl⟩

/-- An answer has passed all tests on the determinants. -/
theorem solve_cramer_of_ok (htol : Tolerance.IsUsable tolerance) {x : Solution}
    (h : s.solve routines .cramer tolerance recording = .ok x) :
    (s.matrix.determinant tolerance recording).value.abs.lt tolerance = false ∧
      (s.matrix.determinant tolerance recording).value.isFinite = true ∧
      (∀ i, ((s.replaceColumn i).determinant tolerance recording).value.isFinite = true) ∧
      x = s.cramerSolution routines tolerance recording := by
  cases hlt : (s.matrix.determinant tolerance recording).value.abs.lt tolerance with
  | true => exact nomatch h.symm.trans (solve_cramer_of_lt hlt)
  | false =>
      cases hfinite : (s.matrix.determinant tolerance recording).value.isFinite with
      | false => exact nomatch h.symm.trans (solve_cramer_of_not_finite hlt hfinite)
      | true =>
          rw [solve_cramer_of_finite htol hlt hfinite] at h
          cases hcolumn : s.matrix.entries.outOfRange? s.constants tolerance recording
              (List.finRange s.matrix.order) with
          | some i =>
              rw [hcolumn] at h
              exact nomatch h
          | none =>
              rw [hcolumn] at h
              exact ⟨rfl, rfl, Tableau.outOfRange?_eq_none_iff.mp hcolumn, (Except.ok.inj h).symm⟩

theorem cramerSolution_unknowns (s : LinearSystem) (routines : MatrixRoutines)
    (tolerance : Binary64) (recording : Bool) :
    (s.cramerSolution routines tolerance recording).unknowns.toList = List.ofFn fun i =>
      ((s.replaceColumn i).determinant tolerance recording).value /
        (s.matrix.determinant tolerance recording).value :=
  Vector.toList_ofFn

theorem cramerSolution_trace_off (s : LinearSystem) (routines : MatrixRoutines)
    (tolerance : Binary64) :
    (s.cramerSolution routines tolerance false).trace = none :=
  s.matrix.entries.quotients_steps?_off s.constants tolerance

/-- The rows of the matrix with a column replaced, entry by entry. -/
theorem replaceColumn_toLists (s : LinearSystem) (i : Fin s.matrix.order) :
    (s.replaceColumn i).entries.toLists = List.ofFn fun r => List.ofFn fun j =>
      if j = i then s.constants[r] else s.matrix.entries r j := by
  rw [Tableau.toLists_eq_ofFn]
  exact congrArg List.ofFn (funext fun r => congrArg List.ofFn (funext fun j =>
    s.matrix.entries.setColumn_apply i s.constants r j))

/-- With a log, the logs of the determinants are in their places. -/
theorem cramerSolution_trace (s : LinearSystem) (routines : MatrixRoutines)
    (tolerance : Binary64) :
    (s.cramerSolution routines tolerance true).trace =
      some (s.cramerSteps (s.matrix.determinant tolerance true).value
        (fun i => ((s.replaceColumn i).determinant tolerance true).value)
        (s.matrix.entries.triangulate tolerance .empty).log.steps
        (fun i => ((s.replaceColumn i).entries.triangulate tolerance .empty).log.steps)) := by
  rw [cramerSteps, ← s.cramerSolution_unknowns routines]
  simp only [← Tableau.toLists_eq_ofFn, ← replaceColumn_toLists]
  exact s.matrix.entries.quotients_steps? s.constants tolerance

/-- **Checked systems**: solving by the rule ends as the determinants say. -/
theorem solve_followsCramer (htol : Tolerance.IsUsable tolerance) :
    s.FollowsCramer tolerance recording (fun r => s.matrix.determinant tolerance r)
      (fun r i => (s.replaceColumn i).determinant tolerance r)
      (s.solve routines .cramer tolerance recording) := by
  -- the rule computes its determinants with the flag `recording`, callers compare without a log
  have hD := s.matrix.determinant_value tolerance recording
  have hcolumn := s.matrix.determinant_singularColumn tolerance recording
  have hE := fun i => (s.replaceColumn i).determinant_value tolerance recording
  constructor
  case singular_iff =>
    rw [solve_cramer_singular_iff htol, hD]
  case singular =>
    intro hlt
    rw [← hD] at hlt
    rw [solve_cramer_of_lt hlt, hD, hcolumn]
  case matrixOutOfRange =>
    intro hlt hfinite
    rw [← hD] at hlt hfinite
    rw [solve_cramer_of_not_finite hlt hfinite, hD]
    exact ⟨_, rfl, rfl, rfl, Fault.determinantRange_names none _⟩
  case columnOutOfRange =>
    intro hlt hfinite i hi hbefore
    rw [← hD] at hlt hfinite
    simp only [← hE] at hi hbefore
    rw [solve_cramer_of_column_not_finite htol hlt hfinite hi hbefore, hE]
    exact ⟨_, rfl, rfl, rfl, Fault.determinantRange_names (some i) _⟩
  case solved =>
    intro hlt hfinite hcolumns
    rw [← hD] at hlt hfinite
    simp only [← hE] at hcolumns
    have hunknowns := s.cramerSolution_unknowns routines tolerance recording
    simp only [hD, hE] at hunknowns
    refine ⟨s.cramerSolution routines tolerance recording,
      solve_cramer_of_columns_finite htol hlt hfinite hcolumns, rfl, hunknowns, ?_, ?_, ?_⟩
    · rw [← hD]
      rfl
    · rintro rfl
      exact s.cramerSolution_trace_off routines tolerance
    · rintro rfl
      refine ⟨_, _, s.matrix.determinant_trace tolerance,
        fun i => (s.replaceColumn i).determinant_trace tolerance, ?_⟩
      rw [cramerSolution_trace]
      simp only [hD, hE]

/-- **Solving by Cramer's rule refines the determinant**: the call ends as the determinants of the
matrix and of the matrix with one column replaced say, the unknowns are their quotients, and the
log is put together from their logs. -/
theorem solve_cramer_refines_determinant (routines : MatrixRoutines) {source : SystemSource}
    {b : Value} (hsource : source.resolve b = .ok s) (htol : Tolerance.IsUsable tolerance)
    (recording : Bool) :
    ∃ (D : Bool → DeterminantSolution) (E : Bool → Fin s.matrix.order → DeterminantSolution),
      (∀ r, determinant source.matrix ⟨.bool r, .float tolerance⟩ = .ok (D r)) ∧
      (∀ A i, A.resolve = .ok (s.replaceColumn i) →
        ∀ r, determinant A ⟨.bool r, .float tolerance⟩ = .ok (E r i)) ∧
      s.FollowsCramer tolerance recording D E
        (RowReduction.solve routines source b ⟨.text "cramer", .bool recording, .float tolerance⟩) := by
  have hcall : RowReduction.solve routines source b
      ⟨.text "cramer", .bool recording, .float tolerance⟩ =
        s.solve routines .cramer tolerance recording :=
    solve_eq_solve hsource htol .cramer
  refine ⟨fun r => s.matrix.determinant tolerance r,
    fun r i => (s.replaceColumn i).determinant tolerance r, ?_, ?_, ?_⟩
  · intro r
    exact determinant_eq_ok (SystemSource.matrix_resolve hsource) htol
  · intro A i hA r
    exact determinant_eq_ok hA htol
  · rw [hcall]
    exact solve_followsCramer htol

/-- Two equations in the wrong order. -/
def exchangedEquations : LinearSystem where
  matrix :=
    { order := 2
      entries := ⟨#v[#v[.zero, .one], #v[.one, .zero]]⟩
      order_pos := by decide
      finite := by decide }
  constants := #v[.one, .ofInt 2]
  finite := by decide +kernel

theorem solve_cramer_refines_determinant_two :
    (SystemSource.system exchangedEquations).resolve .none = .ok exchangedEquations ∧
      Tolerance.IsUsable Tolerance.pivot ∧
      ∃ x steps, RowReduction.solve .hardware (.system exchangedEquations) .none
          ⟨.text "cramer", .bool true, .float Tolerance.pivot⟩ = .ok x ∧
        x.unknowns.toList = [.ofInt 2, .one] ∧ x.effort = .cramer 3 (.ofInt (-1)) ∧
        x.trace = some steps ∧ steps.map Step.tableau? =
          [some [[.zero, .one], [.one, .zero]], some [[.one, .one], [.ofInt 2, .zero]],
            some [[.zero, .one], [.one, .ofInt 2]], none] := by
  have hsource : (SystemSource.system exchangedEquations).resolve .none = .ok exchangedEquations :=
    rfl
  have htol : Tolerance.IsUsable Tolerance.pivot := by decide +kernel
  obtain ⟨D, E, hD, hE, h⟩ := solve_cramer_refines_determinant .hardware hsource htol true
  have hmain : D false = exchangedEquations.matrix.determinant Tolerance.pivot false :=
    Except.ok.inj ((hD false).symm.trans (determinant_eq_ok rfl htol))
  have hcolumn (i) : E false i =
      (exchangedEquations.replaceColumn i).determinant Tolerance.pivot false :=
    Except.ok.inj ((hE (.matrix _) i rfl false).symm.trans (determinant_eq_ok rfl htol))
  obtain ⟨x, hx, hsystem, hunknowns, heffort, _, htrace⟩ := h.solved
    (by rw [hmain]; decide +kernel) (by rw [hmain]; decide +kernel)
    (fun i => by rw [hcolumn]; revert i; decide +kernel)
  obtain ⟨main, minor, _, _, hsteps⟩ := htrace rfl
  refine ⟨hsource, htol, x, _, hx, ?_, ?_, hsteps, ?_⟩
  · simp only [hunknowns, hmain, hcolumn]
    decide +kernel
  · rw [heffort, hmain]
    rfl
  · rfl

end LinearSystem

end RowReduction
