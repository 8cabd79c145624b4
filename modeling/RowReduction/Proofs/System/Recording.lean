import RowReduction.Proofs.Elimination.Cramer
import RowReduction.System.Determinant
import RowReduction.System.Solution
import RowReduction.System.Unchecked

/-!
Calls with and without a log. Asking for a log adds a log to the answer and changes nothing else:
the same numbers are found, the same warnings are earned, and what fails without a log fails with
one for the same reason. This holds of the reductions themselves, whatever numbers they are given
and whatever has been recorded before, and of every call that is made of them.
-/
namespace RowReduction

/-- A solution without its log. -/
def Solution.untraced (x : Solution) : Solution := { x with trace := none }

/-- A determinant without its log. -/
def DeterminantSolution.untraced (d : DeterminantSolution) : DeterminantSolution :=
  { d with trace := none }

/-- Solving a checked system finds the same with and without a log. -/
theorem LinearSystem.solve_untraced (s : LinearSystem) (routines : MatrixRoutines)
    (method : Method) (tolerance : Binary64) (recording : Bool) :
    s.solve routines method tolerance false =
      (s.solve routines method tolerance recording).map Solution.untraced := by
  cases method with
  | gaussJordan =>
      have hreduction : s.matrix.entries.gaussJordan s.constants tolerance (.start false) = _ :=
        s.matrix.entries.gaussJordan_unlogged s.constants tolerance (.start recording)
      rw [solve, solve, hreduction]
      cases s.matrix.entries.gaussJordan s.constants tolerance (.start recording) with
      | error f => rfl
      | ok r => rfl
  | cramer =>
      rw [solve, solve, s.matrix.entries.cramer_unlogged s.constants tolerance recording]
      cases s.matrix.entries.cramer s.constants tolerance recording with
      | error f => rfl
      | ok c => rfl

/-- A checked matrix has the same determinant with and without a log. -/
theorem SquareMatrix.determinant_untraced (m : SquareMatrix) (tolerance : Binary64)
    (recording : Bool) :
    m.determinant tolerance false = (m.determinant tolerance recording).untraced := by
  have htriangulation : m.entries.triangulate tolerance (.start false) = _ :=
    m.entries.triangulate_unlogged tolerance (.start recording)
  rw [determinant, htriangulation]
  rfl

/-- Arguments are read without regard to whether a log is wanted. -/
theorem solve_untraced (routines : MatrixRoutines) (source : SystemSource)
    (b method tolerance : Value) :
    solve routines source b ⟨method, .bool false, tolerance⟩ =
      (solve routines source b ⟨method, .bool true, tolerance⟩).map Solution.untraced := by
  rw [solve, solve]
  cases Tolerance.ofValue tolerance "tol" with
  | error fault => rfl
  | ok t =>
      cases source.resolve b with
      | error fault => rfl
      | ok s =>
          cases Method.ofValue method with
          | error fault => rfl
          | ok chosen => exact s.solve_untraced routines chosen t true

theorem determinant_untraced (source : MatrixSource) (tolerance : Value) :
    determinant source ⟨.bool false, tolerance⟩ =
      (determinant source ⟨.bool true, tolerance⟩).map DeterminantSolution.untraced := by
  rw [determinant, determinant]
  cases Tolerance.ofValue tolerance "tol" with
  | error fault => rfl
  | ok t =>
      cases source.resolve with
      | error fault => rfl
      | ok m => exact congrArg Except.ok (m.determinant_untraced t true)

/-- **The functions that are named after a method** find the same unknowns and issue the same warnings
with and without a log. -/
theorem Method.unknowns_untraced (method : Method) (routines : MatrixRoutines)
    (source : SystemSource) (b tolerance : Value) :
    method.unknowns routines source b tolerance =
      (method.unknownsWithTrace routines source b tolerance).map fun i =>
        ⟨i.result.1, i.warnings⟩ := by
  rw [unknowns, options, solve_untraced, unknownsWithTrace, options]
  cases solve routines source b ⟨.text method.name, .bool true, tolerance⟩ <;> rfl

theorem determinantValue_untraced (source : MatrixSource) (tolerance : Value) :
    determinantValue source tolerance = (determinantWithTrace source tolerance).map Prod.fst := by
  rw [determinantValue, determinant_untraced, determinantWithTrace]
  cases determinant source ⟨.bool true, tolerance⟩ <;> rfl

namespace NumericArray

/-- What a triangular reduction of an array found, without the log. -/
def ArrayTriangulation.untraced (t : ArrayTriangulation) : ArrayTriangulation :=
  { t with trace := none }

/-- A Gauss-Jordan reduction of arrays without the log. -/
def ArrayReduction.untraced (r : ArrayReduction) : ArrayReduction :=
  ⟨r.order, unloggedEnding r.result⟩

theorem ArrayTriangulation.ofTriangulation_untraced {m n : Nat} (M : Tableau Binary64 m n)
    (tolerance : Binary64) (recording : Bool) :
    ofTriangulation (M.triangulate tolerance (.start false)) =
      (ofTriangulation (M.triangulate tolerance (.start recording))).untraced := by
  have htriangulation : M.triangulate tolerance (.start false) = _ :=
    M.triangulate_unlogged tolerance (.start recording)
  rw [htriangulation]
  rfl

/-- An array of two dimensions is reduced to the same with and without a log, whether it has more
rows or more columns or none at all. -/
theorem triangulate_untraced (m n : Nat) (entries : List Binary64)
    (tolerance : Except Fault Binary64) :
    triangulate ⟨[m, n], entries⟩ tolerance false =
      (triangulate ⟨[m, n], entries⟩ tolerance true).map ArrayTriangulation.untraced := by
  simp only [triangulate, ArrayTriangulation.ofTriangulation_untraced _ _ true]
  split
  · rfl
  · split
    · rfl
    · cases tolerance with
      | error fault => rfl
      | ok t =>
          have hcolumn : ((tableau ⟨[m, n], entries⟩ m n).triangulate t (.start false)).singularColumn
              = ((tableau ⟨[m, n], entries⟩ m n).triangulate t (.start true)).singularColumn :=
            (Tableau.triangulate_singularColumn_unlogged _ t (.start true)).symm
          change (if _ then _ else _) = Except.map _ (if _ then _ else _)
          rw [hcolumn]
          split
          · rfl
          · rfl

/-- Arrays of any shapes are solved the same with and without a log. -/
theorem gaussJordan_untraced (a b : NumericArray) (tolerance : Except Fault Binary64) :
    gaussJordan a b tolerance false =
      (gaussJordan a b tolerance true).map ArrayReduction.untraced := by
  have hending {n : Nat} (A : Tableau Binary64 n n) (v : Vector Binary64 n) (t : Binary64) :
      A.gaussJordan v t (.start false) = unloggedEnding (A.gaussJordan v t (.start true)) :=
    A.gaussJordan_unlogged v t (.start true)
  simp only [gaussJordan, hending]
  split
  · rfl
  · rename_i n rest hshape
    cases a.broadcast [n, n] with
    | error fault => rfl
    | ok A =>
        cases b.broadcast [n] with
        | error fault => rfl
        | ok v =>
            by_cases hn : n = 0
            · simp only [if_pos hn]
              rfl
            · simp only [if_neg hn]
              cases tolerance with
              | error fault => rfl
              | ok t => rfl

end NumericArray

/-- **Recording changes nothing but the log.** Both reductions end the same whether or not they
record and whatever was recorded before: a breakdown keeps its column, its candidate and its
tolerance, hence its message. What was recorded before stays, and the new steps come after it. So
calls for a solution and for a determinant give the same answer, or the same fault, with a log and
without one. -/
theorem recording_changes_only_the_log :
    (∀ {m n : Nat} (M : Tableau Binary64 m n) (tolerance : Binary64) (log : Log Binary64),
      M.triangulate tolerance .off = { M.triangulate tolerance log with log := .off } ∧
        log.Grows (M.triangulate tolerance log).log) ∧
    (∀ {n : Nat} (A : Tableau Binary64 n n) (b : Vector Binary64 n) (tolerance : Binary64)
        (log : Log Binary64),
      A.gaussJordan b tolerance .off = unloggedEnding (A.gaussJordan b tolerance log) ∧
        log.Grows (endingLog (A.gaussJordan b tolerance log))) ∧
    (∀ (m n : Nat) (entries : List Binary64) (tolerance : Except Fault Binary64),
      NumericArray.triangulate ⟨[m, n], entries⟩ tolerance false =
        (NumericArray.triangulate ⟨[m, n], entries⟩ tolerance true).map
          NumericArray.ArrayTriangulation.untraced) ∧
    (∀ (a b : NumericArray) (tolerance : Except Fault Binary64),
      a.gaussJordan b tolerance false =
        (a.gaussJordan b tolerance true).map NumericArray.ArrayReduction.untraced) ∧
    (∀ (routines : MatrixRoutines) (source : SystemSource) (b method tolerance : Value),
      solve routines source b ⟨method, .bool false, tolerance⟩ =
        (solve routines source b ⟨method, .bool true, tolerance⟩).map Solution.untraced) ∧
    (∀ (source : MatrixSource) (tolerance : Value),
      determinant source ⟨.bool false, tolerance⟩ =
        (determinant source ⟨.bool true, tolerance⟩).map DeterminantSolution.untraced) :=
  ⟨fun M tolerance log => ⟨M.triangulate_unlogged tolerance log, M.triangulate_grows tolerance log⟩,
    fun A b tolerance log =>
      ⟨A.gaussJordan_unlogged b tolerance log, A.gaussJordan_grows b tolerance log⟩,
    NumericArray.triangulate_untraced, NumericArray.gaussJordan_untraced, solve_untraced,
    determinant_untraced⟩

end RowReduction
