import RowReduction.Exact.Rational
import RowReduction.Input.TypedArray
import RowReduction.Session
import RowReduction.Step.Description
import RowReduction.System.Hardware
import RowReduction.System.Unchecked
import RowReduction.Timer.Desk
import RowReduction.Proofs.Elimination.Clearing
import RowReduction.Proofs.Elimination.Pivot
import RowReduction.Proofs.Exact.RowEquivalence
import RowReduction.Proofs.Exact.Sweep
import RowReduction.Proofs.Exact.Determinant
import RowReduction.Proofs.Exact.GaussJordan
import RowReduction.Proofs.Elimination.Cramer
import RowReduction.Proofs.Exact.Cramer
import RowReduction.Proofs.System.Calls
import RowReduction.Proofs.System.CramerRule
import RowReduction.Proofs.Elimination.Replay
import RowReduction.Proofs.System.Recording
import RowReduction.Proofs.Elimination.GaussJordanLog
import RowReduction.Proofs.Elimination.TriangularLog
import RowReduction.Proofs.Elimination.SideBySide
import RowReduction.Proofs.Exact.Lockstep
import RowReduction.Proofs.Binary64.Order
import RowReduction.Proofs.Elimination.RowOrder
import RowReduction.Proofs.Binary64.Range
import RowReduction.Proofs.Elimination.RightHandSide
import RowReduction.Proofs.System.Finiteness
import RowReduction.Proofs.System.CheckedArrays
import RowReduction.Proofs.System.Safety
import RowReduction.Proofs.Elimination.Strictness
import RowReduction.Proofs.Binary64.Exactness
import RowReduction.Proofs.Elimination.RemainingRows
import RowReduction.Proofs.Elimination.StructuralZeros
import RowReduction.Proofs.System.StructuralSingularity
import RowReduction.Proofs.Elimination.EqualRows
import RowReduction.Proofs.Elimination.Pivots
import RowReduction.Proofs.Elimination.UnitColumns
import RowReduction.Proofs.Exact.Columns
import RowReduction.Proofs.Binary64.Bounds
import RowReduction.Proofs.Elimination.Growth
import RowReduction.Proofs.Exact.ChangeOfUnits
import RowReduction.Proofs.Binary64.Nearest
import RowReduction.Proofs.Binary64.MultiplyBack
import RowReduction.Proofs.Elimination.TriangularForm
import RowReduction.Proofs.Input.Nesting
import RowReduction.Proofs.System.WellPosed
import RowReduction.Proofs.Input.NestedLists
import RowReduction.Proofs.Elimination.FirstLargest
import RowReduction.Proofs.System.ToleranceArgument
import RowReduction.Proofs.Timer.Accounting
import RowReduction.Proofs.Session.Isolation
