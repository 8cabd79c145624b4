import Mathlib
import RowReduction.Proofs.Binary64.Order
import RowReduction.Proofs.Elimination.Clearing
import RowReduction.Proofs.System.CheckedArrays
import RowReduction.Proofs.System.CramerRule

/-!
What a call on checked arguments can end with. A system that has passed the checks is solved, or is
refused as singular, or has a determinant out of range; no other fault of the library can arise,
whatever numbers the elimination runs into. What a fault says about the column, the pivot and the
determinant is true of the place where the method gave up.
-/
namespace RowReduction

namespace Fault

/-- The column in which a system was found to be singular, where it is known. -/
def column? : Fault → Option Nat
  | noPivot column _ _ => some column
  | zeroDeterminant _ _ column => column
  | _ => none

/-- The magnitude of the pivot that was refused. -/
def pivot? : Fault → Option Binary64
  | noPivot _ candidate _ => some candidate
  | _ => none

/-- The determinant that was refused. -/
def determinant? : Fault → Option Binary64
  | zeroDeterminant determinant _ _ => some determinant
  | _ => none

end Fault

/-- A tolerance that has been read is finite and positive. -/
theorem Tolerance.isUsable_of_ofValue {v : Value} {name : String} {tolerance : Binary64}
    (h : ofValue v name = .ok tolerance) : IsUsable tolerance := by
  rw [ofValue] at h
  split at h
  · cases h
  · cases h
  · rename_i x _
    obtain ⟨⟨husable⟩, _, hx⟩ := eq_ok_of_bind_eq_ok h
    cases hx
    exact husable

/-- Nothing is no array of numbers, so a right-hand side that passes the checks is given. -/
theorem SystemSource.resolve_value {a b : Value} {s : LinearSystem}
    (h : LinearSystem.ofValues a b = .ok s) : (value a).resolve b = .ok s := by
  cases b with
  | none =>
      obtain ⟨_, _, h⟩ := eq_ok_of_bind_eq_ok h
      exact nomatch h
  | _ => exact h

/-- Where a column is named, the determinant is zero. -/
theorem SquareMatrix.determinant_value_of_singularColumn {m : SquareMatrix} {tolerance : Binary64}
    {recording : Bool} (h : (m.determinant tolerance recording).singularColumn ≠ none) :
    (m.determinant tolerance recording).value = .zero := by
  obtain ⟨c, hc⟩ := Option.ne_none_iff_exists'.mp h
  obtain ⟨v, t, _, ht⟩ := Tableau.triangulate_of_some hc
  exact congrArg Triangulation.value ht

namespace LinearSystem

/-- What a method finds in a completed run: the unknowns, the effort and the log of its kernel. -/
def Finds (s : LinearSystem) (tolerance : Binary64) (recording : Bool) (x : Solution) :
    Method → Prop
  | .gaussJordan =>
    ∃ r, s.matrix.entries.gaussJordan s.constants tolerance (.start recording) = .ok r ∧
      x.unknowns.toList = r.solution.toList ∧ x.effort = .gaussJordan r.swaps r.pivots ∧
      x.trace = r.log.steps?
  | .cramer =>
    ∃ r, s.matrix.entries.cramer s.constants tolerance recording = .ok r ∧
      x.unknowns.toList = r.solution.toList ∧
      x.effort = .cramer (s.order + 1) r.determinant ∧ x.trace = r.log.steps?

/-- **How solving a checked system may end**: with what the method finds, as many unknowns as there
are equations; by Gauss-Jordan reduction also with a column, whose largest candidate is below the
tolerance; and by Cramer's rule also with a determinant below the tolerance, which is zero if a
column is named, or with a determinant out of range. -/
def EndsSafely (s : LinearSystem) (tolerance : Binary64) (recording : Bool) :
    Method → Except Fault Solution → Prop
  | method, .ok x =>
    x.system = s ∧ x.unknowns.toList.length = s.order ∧ s.Finds tolerance recording x method
  | .gaussJordan, .error f =>
    f.kind = .singularMatrix ∧ f.determinant? = none ∧
      ∃ column pivot, f.column? = some column ∧ column < s.order ∧ f.pivot? = some pivot ∧
        pivot.isNaN = false ∧ pivot.lt .zero = false ∧ pivot.lt tolerance = true
  | .cramer, .error f =>
    f.kind = .numerical ∨
      f.kind = .singularMatrix ∧ f.pivot? = none ∧
        ∃ determinant, f.determinant? = some determinant ∧ determinant.abs.lt tolerance = true ∧
          (f.column? ≠ none → determinant = .zero)

variable {s : LinearSystem} {tolerance : Binary64}

/-- Gauss-Jordan reduction gives up at a magnitude below the tolerance, in a column of the matrix. -/
theorem solve_gaussJordan_endsSafely (s : LinearSystem) (routines : MatrixRoutines)
    (tolerance : Binary64) (recording : Bool) :
    s.EndsSafely tolerance recording .gaussJordan
      (s.solve routines .gaussJordan tolerance recording) := by
  rw [solve]
  cases hr : s.matrix.entries.gaussJordan s.constants tolerance (.start recording) with
  | error f =>
      obtain ⟨d, t, hcolumn, hcandidate, hlt⟩ := Tableau.gaussJordan_of_error hr
      refine ⟨rfl, rfl, f.column, f.candidate, rfl, ?_, rfl, Binary64.isNaN_of_lt hlt, ?_, hlt⟩
      · rw [hcolumn]
        exact d.row_lt
      · rw [hcandidate]
        exact Binary64.abs_lt_zero _
  | ok r => exact ⟨rfl, Vector.length_toList, r, hr, rfl, rfl, rfl⟩

/-- Cramer's rule gives up at a determinant, and divides by none that is zero. -/
theorem solve_cramer_endsSafely (htol : Tolerance.IsUsable tolerance) (routines : MatrixRoutines)
    (recording : Bool) :
    s.EndsSafely tolerance recording .cramer
      (s.solve routines .cramer tolerance recording) := by
  cases hlt : (s.matrix.determinant tolerance recording).value.abs.lt tolerance with
  | true =>
      rw [solve_cramer_of_lt hlt]
      exact .inr ⟨rfl, rfl, _, rfl, hlt, SquareMatrix.determinant_value_of_singularColumn⟩
  | false =>
      cases hfinite : (s.matrix.determinant tolerance recording).value.isFinite with
      | false =>
          rw [solve_cramer_of_not_finite hlt hfinite]
          exact .inl rfl
      | true =>
          rw [solve_cramer_of_finite htol hlt hfinite]
          split
          · exact .inl rfl
          · rename_i hnone
            refine ⟨rfl, Vector.length_toList, _, ?_, rfl, rfl, rfl⟩
            rw [Tableau.cramer_of_finite hlt hfinite (htol.isZero_of_lt_false hlt), hnone]

theorem solve_endsSafely (htol : Tolerance.IsUsable tolerance) (routines : MatrixRoutines)
    (method : Method) (recording : Bool) :
    s.EndsSafely tolerance recording method (s.solve routines method tolerance recording) := by
  cases method with
  | gaussJordan => exact s.solve_gaussJordan_endsSafely routines tolerance recording
  | cramer => exact solve_cramer_endsSafely htol routines recording

/-- **The checks make the calls safe.** Once two values have passed the checks of a system and a third
one those of a tolerance, solving ends with what the method finds or with one of the faults that the
method announces, and every matrix that passes its checks has a determinant. The reductions
of the two arrays, which test nothing themselves, do not fail either, and the search for a pivot
stays within the column whatever has become of the entries. -/
theorem calls_end_safely {a b v : Value} (hsystem : ofValues a b = .ok s)
    (htol : Tolerance.ofValue v "tol" = .ok tolerance) (routines : MatrixRoutines)
    (recording : Bool) :
    (∀ method : Method,
      s.EndsSafely tolerance recording method
        (RowReduction.solve routines (.value a) b ⟨.text method.name, .bool recording, v⟩) ∧
      s.EndsSafely tolerance recording method
        (RowReduction.solve routines (.system s) .none ⟨.text method.name, .bool recording, v⟩)) ∧
    (∀ (source : MatrixSource) (m : SquareMatrix), source.resolve = .ok m →
      RowReduction.determinant source ⟨.bool recording, v⟩ =
        .ok (m.determinant tolerance recording)) ∧
    (∃ A B, a.toArray "A" = .ok A ∧ b.toArray "b" = .ok B ∧
      A.gaussJordan B.flattenColumn (.ok tolerance) recording =
        .ok ⟨s.matrix.order,
          s.matrix.entries.gaussJordan s.constants tolerance (.start recording)⟩ ∧
      A.triangulate (.ok tolerance) recording =
        .ok (.ofTriangulation (s.matrix.entries.triangulate tolerance (.start recording)))) ∧
    ∀ (width : Nat) (entries : List Binary64) (column : Nat), column < s.order → column < width →
      ∃ p : Nat, NumericArray.pivotRow ⟨[s.order, width], entries⟩ column = .ok p ∧
        column ≤ p ∧ p < s.order := by
  have husable : Tolerance.IsUsable tolerance := Tolerance.isUsable_of_ofValue htol
  refine ⟨fun method => ⟨?_, ?_⟩, ?_, ?_, ?_⟩
  · rw [solve_of_read (SystemSource.resolve_value hsystem) htol]
    exact solve_endsSafely husable routines method recording
  · have hsource : (SystemSource.system s).resolve .none = .ok s := rfl
    rw [solve_of_read hsource htol]
    exact solve_endsSafely husable routines method recording
  · intro source m hsource
    exact determinant_of_read hsource htol
  · obtain ⟨A, hA, hsystem⟩ := eq_ok_of_bind_eq_ok hsystem
    obtain ⟨B, hB, harrays⟩ := eq_ok_of_bind_eq_ok hsystem
    refine ⟨A, B, hA, hB, ?_, ?_⟩
    · exact NumericArray.gaussJordan_of_ofArrays harrays tolerance recording
    · exact NumericArray.triangulate_of_ofArray (SquareMatrix.ofArray_of_ofArrays harrays)
        tolerance recording
  · intro width entries column hrow hcolumn
    exact NumericArray.pivotRow_in_range entries hrow hcolumn

/-- Two equal rows with different right-hand sides, as a caller writes them. -/
def equalRows : Value := .list [.list [.int 1, .int 1], .list [.int 1, .int 1]]

def unequalSides : Value := .list [.int 1, .int 2]

theorem calls_end_safely_of_equal_rows :
    ∃ s, ofValues equalRows unequalSides = .ok s ∧ s.order = 2 ∧
      Tolerance.ofValue (.int 1) "tol" = .ok .one ∧
      s.EndsSafely .one true .gaussJordan
        (RowReduction.solve .hardware (.value equalRows) unequalSides
          ⟨.text "gauss_jordan", .bool true, .int 1⟩) ∧
      s.EndsSafely .one true .cramer
        (RowReduction.solve .hardware (.value equalRows) unequalSides
          ⟨.text "cramer", .bool true, .int 1⟩) := by
  have hchecks : (ofValues equalRows unequalSides).toOption.map order = some 2 := by
    decide +kernel
  have htol : Tolerance.ofValue (.int 1) "tol" = .ok .one := by
    have hread : (Tolerance.ofValue (.int 1) "tol").toOption.map id = some .one := by decide +kernel
    obtain ⟨_, h, rfl⟩ := eq_ok_of_toOption_map_eq_some hread
    exact h
  obtain ⟨s, hs, horder⟩ := eq_ok_of_toOption_map_eq_some hchecks
  obtain ⟨hsolves, _⟩ := calls_end_safely hs htol .hardware true
  exact ⟨s, hs, horder, htol, (hsolves .gaussJordan).1, (hsolves .cramer).1⟩

end LinearSystem

end RowReduction
