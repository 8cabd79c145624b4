import RowReduction.Elimination.Triangular

/-!
Cramer's rule: the unknown `i` is the determinant of the system with column `i` replaced by the
right-hand side, over the determinant of the system. All determinants come from the triangular
reduction with one tolerance.
-/
namespace RowReduction

/-- What Cramer's rule found. -/
structure CramerSolution (α : Type) (n : Nat) where
  solution : Vector α n
  determinant : α
  log : Log α

/-- Why Cramer's rule gave no answer. -/
inductive CramerFailure (α : Type) where
  /-- The determinant of the system is below the tolerance. -/
  | singular (determinant tolerance : α) (column : Option Nat)
  /-- A determinant is not finite: that of the system, or of the system with a column replaced. -/
  | notFinite (replaced : Option Nat) (determinant : α)
  /-- The determinant of the system is zero and the tolerance let it pass. -/
  | zeroDivisor

namespace Tableau

variable {α : Type} [Scalar α] {n : Nat}

/-- One unknown: the determinant with column `i` replaced, over `divisor`. -/
def cramerUnknown (A : Tableau α n n) (b : Vector α n) (tolerance divisor : α) (recording : Bool)
    (found : Vector α n × Log α) (i : Fin n) :
    Except (CramerFailure α) (Vector α n × Log α) :=
  let replaced := A.setColumn i b
  let minor := replaced.triangulate tolerance (.start recording)
  if !Scalar.isFinite minor.value then .error (.notFinite (some i) minor.value)
  else if Scalar.isZero divisor then .error .zeroDivisor
  else
    let value := minor.value / divisor
    .ok (found.1.set i value i.isLt, found.2.record fun _ =>
      .unknown i minor.value divisor replaced.toLists minor.log.steps value)

/-- Solves `A x = b` by Cramer's rule. -/
def cramer (A : Tableau α n n) (b : Vector α n) (tolerance : α) (recording : Bool) :
    Except (CramerFailure α) (CramerSolution α n) := do
  let main := A.triangulate tolerance (.start recording)
  let log := (Log.start recording).record fun _ =>
    .determinantValue main.value (some A.toLists) main.log.steps
  if Scalar.lt (Scalar.abs main.value) tolerance then
    throw (.singular main.value tolerance main.singularColumn)
  if !Scalar.isFinite main.value then
    throw (.notFinite none main.value)
  let (solution, log) ← (List.finRange n).foldlM
    (A.cramerUnknown b tolerance main.value recording) (Vector.replicate n 0, log)
  return {
    solution
    determinant := main.value
    log := log.record fun _ => .final solution.toList none }

end Tableau

end RowReduction
