import RowReduction.Proofs.Outcome
import RowReduction.System.Determinant
import RowReduction.System.Solution

/-!
The public calls with their arguments read. Once the tolerance, the source, the method and the wish
for a log have been understood, a call does what the checked matrix or system does.
-/
namespace RowReduction

variable {tolerance : Binary64} {recording : Bool} {routines : MatrixRoutines}

/-- A usable number is read as the tolerance it is. -/
theorem Tolerance.ofValue_float (h : IsUsable tolerance) (name : String) :
    ofValue (.float tolerance) name = .ok tolerance := by
  have hread : (Value.float tolerance).real = .ok tolerance := rfl
  have hrequire : require (IsUsable tolerance) (.toleranceOutOfRange name tolerance) = .ok ⟨h⟩ :=
    dif_pos h
  rw [ofValue, hread]
  dsimp only
  rw [hrequire]
  rfl

theorem Method.ofValue_name (method : Method) : ofValue (.text method.name) = .ok method := by
  cases method <;> rfl

/-- **One matrix for both calls**: the array of a checked system passes the checks of a matrix. -/
theorem SquareMatrix.ofArray_of_ofArrays {a b : NumericArray} {s : LinearSystem}
    (h : LinearSystem.ofArrays a b = .ok s) : ofArray a = .ok s.matrix := by
  obtain ⟨_, hrank, h⟩ := eq_ok_of_bind_eq_ok h
  obtain ⟨⟨nonempty⟩, hnonempty, h⟩ := eq_ok_of_bind_eq_ok h
  obtain ⟨_, hsquare, h⟩ := eq_ok_of_bind_eq_ok h
  -- the checks of the right-hand side come before the matrix is looked through
  obtain ⟨_, _, h⟩ := eq_ok_of_bind_eq_ok h
  obtain ⟨_, _, h⟩ := eq_ok_of_bind_eq_ok h
  obtain ⟨⟨finite⟩, hfinite, h⟩ := eq_ok_of_bind_eq_ok h
  obtain ⟨_, _, h⟩ := eq_ok_of_bind_eq_ok h
  cases h
  rw [ofArray, hrank, hnonempty, hsquare, hfinite]
  rfl

theorem SquareMatrix.ofValue_of_ofValues {a b : Value} {s : LinearSystem}
    (h : LinearSystem.ofValues a b = .ok s) : ofValue a = .ok s.matrix := by
  obtain ⟨array, harray, h⟩ := eq_ok_of_bind_eq_ok h
  obtain ⟨_, _, h⟩ := eq_ok_of_bind_eq_ok h
  rw [ofValue, harray]
  exact ofArray_of_ofArrays h

/-- The matrix of a system, checked or not. -/
def SystemSource.matrix : SystemSource → MatrixSource
  | value a => .value a
  | system s => .matrix s.matrix

theorem SystemSource.matrix_resolve {source : SystemSource} {b : Value} {s : LinearSystem}
    (h : source.resolve b = .ok s) : source.matrix.resolve = .ok s.matrix := by
  cases source with
  | value a =>
      have hvalues : LinearSystem.ofValues a b = .ok s := by
        cases b with
        | none => exact nomatch h
        | _ => exact h
      exact SquareMatrix.ofValue_of_ofValues hvalues
  | system t =>
      cases b with
      | none =>
          cases h
          rfl
      | _ => exact nomatch h

/-- A call for a determinant whose arguments can be read. -/
theorem determinant_of_read {source : MatrixSource} {m : SquareMatrix} {v : Value}
    (hsource : source.resolve = .ok m) (htol : Tolerance.ofValue v "tol" = .ok tolerance) :
    determinant source ⟨.bool recording, v⟩ = .ok (m.determinant tolerance recording) := by
  rw [determinant, htol, hsource]
  rfl

/-- A call for a solution whose arguments can be read. -/
theorem solve_of_read {source : SystemSource} {b v : Value} {s : LinearSystem}
    (hsource : source.resolve b = .ok s) (htol : Tolerance.ofValue v "tol" = .ok tolerance)
    (method : Method) :
    solve routines source b ⟨.text method.name, .bool recording, v⟩ =
      s.solve routines method tolerance recording := by
  rw [solve, htol, hsource, Method.ofValue_name]
  rfl

theorem determinant_eq_ok {source : MatrixSource} {m : SquareMatrix}
    (hsource : source.resolve = .ok m) (htol : Tolerance.IsUsable tolerance) :
    determinant source ⟨.bool recording, .float tolerance⟩ =
      .ok (m.determinant tolerance recording) :=
  determinant_of_read hsource (Tolerance.ofValue_float htol "tol")

theorem solve_eq_solve {source : SystemSource} {b : Value} {s : LinearSystem}
    (hsource : source.resolve b = .ok s) (htol : Tolerance.IsUsable tolerance) (method : Method) :
    solve routines source b ⟨.text method.name, .bool recording, .float tolerance⟩ =
      s.solve routines method tolerance recording :=
  solve_of_read hsource (Tolerance.ofValue_float htol "tol") method

end RowReduction
