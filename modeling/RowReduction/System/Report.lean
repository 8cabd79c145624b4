import RowReduction.Scalar
import RowReduction.Step
import RowReduction.System.Conditioning
import RowReduction.System.Method
import RowReduction.Text.ArrayLayout
import RowReduction.Text.NumberColumn

/-!
What solutions and determinants consist of, and their reports. Vectors and tableaus are held in some
form; a report is made from plain numbers.
-/
namespace RowReduction

/-- What a solution consists of, with tableaus held as `τ` and vectors held as `σ`. -/
structure SolutionFields (τ σ : Type) where
  order : Nat
  tolerance : Binary64
  unknowns : σ
  residuals : σ
  effort : Effort
  conditionNumber : Binary64
  trace : Option (List (Step τ σ Binary64))

/-- What a determinant consists of, with tableaus held as `τ` and vectors held as `σ`. -/
structure DeterminantFields (τ σ : Type) where
  order : Nat
  tolerance : Binary64
  value : Binary64
  sign : Int
  swaps : Nat
  pivots : List Binary64
  triangular : τ
  singularColumn : Option Nat
  trace : Option (List (Step τ σ Binary64))

/-- A solution in plain numbers. -/
abbrev SolutionReport := SolutionFields (List (List Binary64)) (List Binary64)

/-- A determinant in plain numbers. -/
abbrev DeterminantReport := DeterminantFields (List (List Binary64)) (List Binary64)

namespace SolutionFields

variable {τ σ τ' σ' : Type}

/-- The same solution, with its tableaus and vectors held in another way. -/
def map (f : τ → τ') (g : σ → σ') (s : SolutionFields τ σ) : SolutionFields τ' σ' where
  order := s.order
  tolerance := s.tolerance
  unknowns := g s.unknowns
  residuals := g s.residuals
  effort := s.effort
  conditionNumber := s.conditionNumber
  trace := s.trace.map (Step.mapAll f g)

def method (s : SolutionFields τ σ) : Method := s.effort.method

def warnings (s : SolutionFields τ σ) : List String := conditioningWarnings s.conditionNumber

/-- The largest magnitude of a residual; not-a-number if any residual is. -/
def maxAbsResidual (s : SolutionReport) : Binary64 :=
  s.residuals.foldl (fun m r => if Scalar.outranks r m then r.abs else m) .zero

/-- The lines for the unknowns, numbered from `index`. -/
def unknownLines (index : Nat) : List Binary64 → List String
  | [] => []
  | x :: rest =>
    (padLeft 6 ("x" ++ toString index) ++ " " ++ padLeft 16 (x.generalText 10)) ::
      unknownLines (index + 1) rest

/-- Unknowns show at most six places, and exponents from `10 ^ 8` on. -/
def unknownsColumn : NumberColumn := ⟨6, .double, 8, false⟩

/-- Unknowns stand in brackets with blanks between them. -/
def unknownsLayout : ArrayLayout := ⟨" ", 0, 75⟩

/-- A solution on one line, or on more if it has many unknowns. -/
def display (s : SolutionReport) : String :=
  let shape := [s.order]
  let cells := unknownsColumn.cells (ArrayLayout.visible shape s.unknowns)
  "LinearSystemSolution(method=" ++ quoteText s.method.name ++ ", x=" ++
    unknownsLayout.render shape cells ++ ")"

/-- A report of several lines. -/
def summary (s : SolutionReport) : List String :=
  ["Linear System Solution", "".pushn '=' 50, "Method: " ++ s.method.name,
    "Equations: " ++ toString s.order,
    "Condition number: " ++ s.conditionNumber.generalText 4] ++
  s.effort.determinant?.toList.map (fun d => "det(A): " ++ d.generalText 10) ++
  ["", padLeft 6 "" ++ " " ++ padLeft 16 "Value", "".pushn '-' 24] ++
  unknownLines 1 s.unknowns ++
  ["", "Max |A x - b|: " ++ s.maxAbsResidual.exponentForm 3] ++
  s.trace.toList.map (fun steps => "Trace steps: " ++ toString steps.length) ++
  s.warnings.map ("Warning: " ++ ·)

end SolutionFields

namespace DeterminantFields

variable {τ σ τ' σ' : Type}

/-- The same determinant, with its tableaus and vectors held in another way. -/
def map (f : τ → τ') (g : σ → σ') (d : DeterminantFields τ σ) : DeterminantFields τ' σ' where
  order := d.order
  tolerance := d.tolerance
  value := d.value
  sign := d.sign
  swaps := d.swaps
  pivots := d.pivots
  triangular := f d.triangular
  singularColumn := d.singularColumn
  trace := d.trace.map (Step.mapAll f g)

/-- The name under which determinants are reported. -/
def backend : String := "cpu_elimination"

def methodName : String := "triangular_elimination"

def phases : List String := ["reduction"]

/-- A determinant on one line. -/
def display (d : DeterminantReport) : String :=
  "DeterminantSolution(value=" ++ d.value.shortestText ++ ", n=" ++ toString d.order ++ ")"

/-- A report of several lines. -/
def summary (d : DeterminantReport) : List String :=
  let n := toString d.order
  ["Determinant", "".pushn '=' 40, "Dimension: " ++ n ++ " x " ++ n,
    "Row swaps: " ++ toString d.swaps ++ " (sign " ++ (if d.sign < 0 then "-" else "+") ++
      toString d.sign.natAbs ++ ")"] ++
  d.singularColumn.toList.map
    (fun c => "Singular: no pivot above tolerance in column " ++ toString (c + 1)) ++
  ["det(A) = " ++ d.value.generalText 10] ++
  d.trace.toList.map (fun steps => "Trace steps: " ++ toString steps.length)

end DeterminantFields

end RowReduction
