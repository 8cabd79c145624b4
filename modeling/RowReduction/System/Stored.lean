import RowReduction.Elimination.InPlace
import RowReduction.System.Determinant
import RowReduction.System.Solution

/-!
Systems, solutions and determinants in memory. A system is made from copies of the arrays that it is
given, and nobody may write to these copies. Of a solution the unknowns are an array that may be
written to; what its log shows are copies again.
-/
namespace RowReduction

/-- A result that does not depend on a state, or a fault that does not change it. -/
instance {σ : Type} : MonadLift (Except Fault) (EStateM Fault σ) := ⟨liftExcept⟩

/-- A checked system in memory. -/
structure StoredSystem where
  order : Nat
  coefficients : StoredArray
  constants : StoredArray

/-- A solution in memory. -/
abbrev StoredSolution := SolutionFields StoredArray StoredArray

/-- A determinant in memory. -/
abbrev StoredDeterminant := DeterminantFields StoredArray StoredArray

/-- What the solution shows, as memory stands. -/
def StoredSolution.report (s : StoredSolution) (μ : Memory) : SolutionReport :=
  s.map (StoredArray.rows μ) (StoredArray.numbers μ)

/-- What the determinant shows, as memory stands. -/
def StoredDeterminant.report (d : StoredDeterminant) (μ : Memory) : DeterminantReport :=
  d.map (StoredArray.rows μ) (StoredArray.numbers μ)

namespace StoredSystem

/-- The system in two arrays, which are copied before they are looked at. -/
def ofArrays (a b : StoredArray) : EStateM Fault Memory StoredSystem := do
  let a ← modifyGet a.copy
  let b ← modifyGet b.copy
  let μ ← get
  let system ← LinearSystem.ofArrays (a.load μ) (b.load μ)
  return ⟨system.order, a.readOnly, b.flattenColumn.readOnly⟩

/-- The solution with the given unknowns; the residuals get an array of their own. -/
def solution (s : StoredSystem) (routines : MatrixRoutines) (tolerance : Binary64)
    (x : StoredArray) (effort : Effort) (trace : Option (List StoredStep)) :
    EStateM Fault Memory StoredSolution := do
  let μ ← get
  let A := s.coefficients.tableau μ s.order s.order
  let residuals := routines.residuals A (x.vector μ s.order) (s.constants.vector μ s.order)
  return {
    order := s.order
    tolerance
    unknowns := x
    residuals := ← modifyGet (NumericArray.store ⟨[s.order], residuals.toList⟩)
    effort
    conditionNumber := routines.conditionNumber A
    trace }

/-- Solves a system whose tolerance has been decided. -/
def solve (s : StoredSystem) (routines : MatrixRoutines) (method : Method) (tolerance : Binary64)
    (recording : Bool) : EStateM Fault Memory StoredSolution := do
  match method with
  | .gaussJordan =>
    let r ← s.coefficients.gaussJordan s.constants s.order tolerance recording
    s.solution routines tolerance r.solution (.gaussJordan r.swaps r.pivots) r.steps?
  | .cramer =>
    let r ← s.coefficients.cramer s.constants s.order tolerance recording
    s.solution routines tolerance r.solution (.cramer (s.order + 1) r.determinant) r.steps?

end StoredSystem

/-- What is to be solved: a system that may have been made before, or what two arrays hold now. -/
inductive StoredSource where
  | system (s : Option StoredSystem)
  | arrays (a b : StoredArray)

namespace StoredSource

def resolve : StoredSource → EStateM Fault Memory StoredSystem
  | system none => throw .rightHandSideMissing
  | system (some s) => return s
  | arrays a b => StoredSystem.ofArrays a b

/-- Solves a system. The tolerance is checked first, then the system, then the method; whether to
keep a log is asked last. -/
def solve (source : StoredSource) (routines : MatrixRoutines) (options : SolveOptions) :
    EStateM Fault Memory StoredSolution := do
  let tolerance ← Tolerance.ofValue options.tolerance "tol"
  let system ← source.resolve
  let method ← Method.ofValue options.method
  system.solve routines method tolerance (← options.trace.truth)

end StoredSource

/-- The determinant of what an array holds, which is copied before it is looked at. -/
def StoredArray.determinant (a : StoredArray) (options : DeterminantOptions) :
    EStateM Fault Memory StoredDeterminant := do
  let tolerance ← Tolerance.ofValue options.tolerance "tol"
  let a ← modifyGet a.copy
  let matrix ← SquareMatrix.ofArray (a.load (← get))
  let recording ← options.trace.truth
  let t ← modifyGet (a.readOnly.triangulate matrix.order matrix.order tolerance recording)
  return {
    order := matrix.order
    tolerance
    value := t.value
    sign := t.sign
    swaps := t.swaps
    pivots := t.pivots
    triangular := t.triangular
    singularColumn := t.singularColumn
    trace := t.steps? }

end RowReduction
