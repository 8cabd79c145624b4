import RowReduction.Elimination.Cramer
import RowReduction.Elimination.GaussJordan
import RowReduction.System.Basic
import RowReduction.System.Report
import RowReduction.System.Routines

/-!
Solving linear systems by either method, and what a solution knows: the unknowns, how far they are
from satisfying the equations, how the method got there, and the log when one was asked for.
-/
namespace RowReduction

/-- A solved system. -/
structure Solution where
  system : LinearSystem
  tolerance : Binary64
  unknowns : Vector Binary64 system.order
  residuals : Vector Binary64 system.order
  effort : Effort
  conditionNumber : Binary64
  trace : Option (List (RowStep Binary64))

namespace Solution

/-- What the solution shows. -/
def report (s : Solution) : SolutionReport where
  order := s.system.order
  tolerance := s.tolerance
  unknowns := s.unknowns.toList
  residuals := s.residuals.toList
  effort := s.effort
  conditionNumber := s.conditionNumber
  trace := s.trace

end Solution

namespace Fault

/-- A Gauss-Jordan breakdown as a fault. -/
def ofBreakdown (b : Breakdown Binary64) : Fault := .noPivot b.column b.candidate b.tolerance

/-- A failure of Cramer's rule as a fault. -/
def ofCramerFailure : CramerFailure Binary64 → Fault
  | .singular determinant tolerance column => .zeroDeterminant determinant tolerance column
  | .notFinite replaced determinant => .determinantRange replaced determinant
  | .zeroDivisor => .zeroDivisor

end Fault

namespace LinearSystem

/-- The solution with the given unknowns. -/
def solution (s : LinearSystem) (routines : MatrixRoutines) (tolerance : Binary64)
    (x : Vector Binary64 s.order) (effort : Effort) (log : Log Binary64) : Solution where
  system := s
  tolerance := tolerance
  unknowns := x
  residuals := routines.residuals s.matrix.entries x s.constants
  effort := effort
  conditionNumber := routines.conditionNumber s.matrix.entries
  trace := log.steps?

/-- Solves a system whose tolerance has been decided. -/
def solve (s : LinearSystem) (routines : MatrixRoutines) (method : Method) (tolerance : Binary64)
    (recording : Bool) : Except Fault Solution :=
  match method with
  | .gaussJordan =>
    match s.matrix.entries.gaussJordan s.constants tolerance (.start recording) with
    | .error b => .error (.ofBreakdown b)
    | .ok r => .ok (s.solution routines tolerance r.solution (.gaussJordan r.swaps r.pivots) r.log)
  | .cramer =>
    match s.matrix.entries.cramer s.constants tolerance recording with
    | .error f => .error (.ofCramerFailure f)
    | .ok r =>
      .ok (s.solution routines tolerance r.solution (.cramer (s.order + 1) r.determinant) r.log)

end LinearSystem

/-- What a caller may pass as the matrix of a system: a value, or a system already checked. -/
inductive SystemSource where
  | value (a : Value)
  | system (s : LinearSystem)

namespace SystemSource

/-- The system of a source and a right-hand side, which goes with a value and only with a value. -/
def resolve (source : SystemSource) (b : Value) : Except Fault LinearSystem :=
  match source, b with
  | system s, .none => .ok s
  | system _, _ => .error .rightHandSideGiven
  | value _, .none => .error .rightHandSideMissing
  | value a, b => LinearSystem.ofValues a b

end SystemSource

/-- How a caller wants a system solved. -/
structure SolveOptions where
  method : Value := .text "gauss_jordan"
  trace : Value := .bool false
  tolerance : Value := .float Tolerance.pivot

/-- Solves a system. The tolerance is checked first, then the system, then the method;
whether to keep a log is asked last. -/
def solve (routines : MatrixRoutines) (source : SystemSource) (b : Value) (options : SolveOptions) :
    Except Fault Solution := do
  let tolerance ← Tolerance.ofValue options.tolerance "tol"
  let system ← source.resolve b
  let method ← Method.ofValue options.method
  system.solve routines method tolerance (← options.trace.truth)

/-- What a call returns, and the warnings that it issues on the way. -/
structure Issued (α : Type) where
  result : α
  warnings : List String

namespace Method

/-- The options of the functions that are named after a method. -/
def options (method : Method) (recording : Bool) (tolerance : Value) : SolveOptions where
  method := .text method.name
  trace := .bool recording
  tolerance := tolerance

/-- The unknowns that a method finds. -/
def unknowns (method : Method) (routines : MatrixRoutines) (source : SystemSource)
    (b tolerance : Value) : Except Fault (Issued (List Binary64)) := do
  let solution ← solve routines source b (method.options false tolerance)
  return ⟨solution.unknowns.toList, solution.report.warnings⟩

/-- The unknowns that a method finds, with the log. -/
def unknownsWithTrace (method : Method) (routines : MatrixRoutines) (source : SystemSource)
    (b tolerance : Value) :
    Except Fault (Issued (List Binary64 × Option (List (RowStep Binary64)))) := do
  let solution ← solve routines source b (method.options true tolerance)
  return ⟨(solution.unknowns.toList, solution.trace), solution.report.warnings⟩

end Method

/-- The unknowns by Gauss-Jordan reduction. -/
def gaussJordan (routines : MatrixRoutines) (source : SystemSource) (b : Value)
    (tolerance : Value := .float Tolerance.pivot) :=
  Method.gaussJordan.unknowns routines source b tolerance

/-- The unknowns by Gauss-Jordan reduction, with the log. -/
def gaussJordanWithTrace (routines : MatrixRoutines) (source : SystemSource) (b : Value)
    (tolerance : Value := .float Tolerance.pivot) :=
  Method.gaussJordan.unknownsWithTrace routines source b tolerance

/-- The unknowns by Cramer's rule. -/
def cramer (routines : MatrixRoutines) (source : SystemSource) (b : Value)
    (tolerance : Value := .float Tolerance.pivot) :=
  Method.cramer.unknowns routines source b tolerance

/-- The unknowns by Cramer's rule, with the log. -/
def cramerWithTrace (routines : MatrixRoutines) (source : SystemSource) (b : Value)
    (tolerance : Value := .float Tolerance.pivot) :=
  Method.cramer.unknownsWithTrace routines source b tolerance

end RowReduction
