import RowReduction.Input.Reading

/-!
The two ways to solve a system, and what each of them has to say about its work.
-/
namespace RowReduction

/-- How a system is solved. -/
inductive Method where
  | gaussJordan
  | cramer
deriving DecidableEq

namespace Method

def name : Method → String
  | gaussJordan => "gauss_jordan"
  | cramer => "cramer"

/-- The method a value names. -/
def ofValue (v : Value) : Except Fault Method := do
  if ← v.equalsText gaussJordan.name then return gaussJordan
  if ← v.equalsText cramer.name then return cramer
  throw (.unknownMethod v.display)

/-- The name under which a method reports its results. -/
def backend : Method → String
  | gaussJordan => "cpu_gauss_jordan"
  | cramer => "cpu_cramer"

/-- The phases that a method times, in the order in which they end. -/
def phases : Method → List String
  | gaussJordan => ["reduction", "residuals"]
  | cramer => ["determinants", "residuals"]

end Method

/-- What a method did on the way to its answer. -/
inductive Effort where
  | gaussJordan (swaps : Nat) (pivots : List Binary64)
  | cramer (determinants : Nat) (determinant : Binary64)

namespace Effort

def method : Effort → Method
  | gaussJordan .. => .gaussJordan
  | cramer .. => .cramer

/-- The determinant of the matrix, which Cramer's rule computes anyway. -/
def determinant? : Effort → Option Binary64
  | gaussJordan .. => none
  | cramer _ determinant => some determinant

end Effort

end RowReduction
