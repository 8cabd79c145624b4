import RowReduction.Decimal.Format
import RowReduction.Step

/-!
What a step says about itself. Rows are called `R1`, `R2` and so on, unknowns `x1`, `x2` and so on,
and numbers show six significant digits.
-/
namespace RowReduction.Step

/-- The names of the kinds of steps, in the order in which a log can first show them. -/
def kinds : List String :=
  ["initial", "swap", "normalize", "eliminate", "singular_pivot", "triangular",
    "determinant_value", "unknown_result", "final"]

variable {τ σ α : Type}

def kind : Step τ σ α → String
  | initial .. => "initial"
  | swap .. => "swap"
  | normalize .. => "normalize"
  | eliminate .. => "eliminate"
  | singularPivot .. => "singular_pivot"
  | triangular .. => "triangular"
  | determinantValue .. => "determinant_value"
  | unknown .. => "unknown_result"
  | final .. => "final"

/-- Indices count from zero, labels from one. -/
def rowLabel (row : Int) : String := "R" ++ toString (row + 1)

def numberText (x : Binary64) : String := x.generalText 6

/-- An integer with its sign, also when it is positive. -/
def signedText (i : Int) : String := (if i < 0 then "-" else "+") ++ toString i.natAbs

/-- The values of the unknowns, numbered from `index`. -/
def assignments (index : Nat) : List Binary64 → List String
  | [] => []
  | x :: rest => ("x" ++ toString index ++ " = " ++ numberText x) :: assignments (index + 1) rest

def description : Step τ (List Binary64) Binary64 → String
  | initial _ => "Initial augmented matrix [A|b]"
  | swap row pivotRow _ =>
    "Swap " ++ rowLabel row ++ " <-> " ++ rowLabel pivotRow ++ " (largest |pivot| in column " ++
      toString (row + 1) ++ ")"
  | normalize row pivot _ =>
    rowLabel row ++ " = " ++ rowLabel row ++ " / " ++ numberText pivot
  | eliminate source target factor _ =>
    rowLabel target ++ " = " ++ rowLabel target ++ " - (" ++ numberText factor ++ ") * " ++
      rowLabel source
  | singularPivot column pivot tolerance _ =>
    "Largest |pivot| in column " ++ toString (column + 1) ++ " is " ++ numberText pivot ++
      " (< " ++ numberText tolerance ++ "): determinant = 0"
  | triangular _ sign => "Upper triangular form (row swap sign " ++ signedText sign ++ ")"
  | determinantValue value _ _ => "det = " ++ numberText value
  | unknown index determinant divisor _ _ value =>
    let i := toString (index + 1)
    "x" ++ i ++ " = det(A" ++ i ++ ") / det(A) = " ++ numberText determinant ++ " / " ++
      numberText divisor ++ " = " ++ numberText value
  | final solution _ => "Solution: " ++ ", ".intercalate (assignments 1 solution)

end RowReduction.Step
