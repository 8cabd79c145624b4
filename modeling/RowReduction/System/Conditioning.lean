import RowReduction.Decimal.Format
import RowReduction.Tolerance

/-!
The warning that a large condition number earns.
-/
namespace RowReduction

/-- The warnings that a condition number earns. -/
def conditioningWarnings (conditionNumber : Binary64) : List String :=
  if Tolerance.illConditioned.lt conditionNumber then
    ["Coefficient matrix is ill-conditioned (cond=" ++ conditionNumber.generalText 3 ++ " > " ++
      Tolerance.illConditioned.exponentForm 0 ++ "); the solution may be inaccurate."]
  else []

/-- Whether any warning contains the given text. -/
def mentions (warnings : List String) (text : String) : Bool :=
  warnings.any fun w => (w.splitOn text).length > 1 || text.isEmpty

end RowReduction
