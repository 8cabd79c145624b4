import RowReduction.Elimination.Cramer
import RowReduction.Elimination.GaussJordan
import RowReduction.Fault
import RowReduction.Memory

/-!
The reductions as they work in memory. A reduction has an array of its own, made from the numbers
that it is given, and overwrites that array row operation by row operation. A log gets a copy of it
at every step, which nobody may write to. Cramer's rule fills a copy of the matrix for each unknown.
-/
namespace RowReduction

/-- A reduction at work: the address of its array, and what it has done so far. The log has the newest
entry first. -/
structure Workspace (m n : Nat) where
  memory : Memory
  address : Nat
  swaps : Nat
  pivots : List Binary64
  log : Option (List StoredStep)

/-- Where a reduction found no pivot, and the largest candidate there. -/
structure Stall where
  column : Nat
  candidate : Binary64

/-- What a triangular reduction leaves in memory. -/
structure StoredTriangulation where
  value : Binary64
  sign : Int
  swaps : Nat
  triangular : StoredArray
  pivots : List Binary64
  singularColumn : Option Nat
  steps? : Option (List StoredStep)

/-- What a Gauss-Jordan reduction leaves in memory. -/
structure StoredReduction where
  solution : StoredArray
  reduced : StoredArray
  swaps : Nat
  pivots : List Binary64
  steps? : Option (List StoredStep)

/-- What Cramer's rule leaves in memory. -/
structure StoredCramerSolution where
  solution : StoredArray
  determinant : Binary64
  steps? : Option (List StoredStep)

namespace Workspace

variable {m n : Nat}

/-- Starts with a new array for the numbers that are to be reduced. -/
def start (M : Tableau Binary64 m n) (recording : Bool) (μ : Memory) : Workspace m n where
  memory := μ.allocate M.entries
  address := μ.size
  swaps := 0
  pivots := []
  log := if recording then some [] else none

/-- The array that is being reduced. -/
def array (w : Workspace m n) : StoredArray := ⟨w.address, [m, n], true⟩

/-- The numbers that stand in the array now. -/
def working (w : Workspace m n) : Tableau Binary64 m n := (w.array.load w.memory).tableau m n

/-- The parity of the exchanges, `1` or `-1`. -/
def sign (w : Workspace m n) : Int := if w.swaps % 2 = 0 then 1 else -1

/-- Records a step that shows the array as it is now. -/
def record (w : Workspace m n) (step : StoredArray → StoredStep) : Workspace m n :=
  match w.log with
  | none => w
  | some steps =>
    let (shown, memory) := w.array.snapshot w.memory
    { w with memory, log := some (step shown :: steps) }

/-- Records a step that does not show the array. -/
def note (w : Workspace m n) (step : StoredStep) : Workspace m n :=
  { w with log := w.log.map (step :: ·) }

/-- Overwrites the array and records the step that led there. -/
def become (w : Workspace m n) (working : Tableau Binary64 m n) (step : StoredArray → StoredStep) :
    Workspace m n :=
  { w with memory := w.array.fill working.entries w.memory }.record step

/-- Exchanges row `i` with the pivot row `p`; nothing happens when they are the same row. -/
def bringUp (w : Workspace m n) (i p : Fin m) : Workspace m n :=
  if p = i then w
  else { w.become (w.working.swapRows i p) (.swap i p) with swaps := w.swaps + 1 }

/-- Notes the pivot now on the diagonal. -/
def takePivot (w : Workspace m n) (d : Diagonal m n) : Workspace m n :=
  { w with pivots := w.pivots ++ [w.working d.row d.column] }

/-- Subtracts `factor` times the pivot row from row `r`, from the pivot column on. -/
def eliminate (w : Workspace m n) (d : Diagonal m n) (factor : Binary64) (r : Fin m) :
    Workspace m n :=
  w.become (w.working.subtractRow d.row r d.index factor) (.eliminate d.index r factor)

/-- Divides the pivot row by its pivot, from the pivot column on. -/
def normalize (d : Diagonal m n) (w : Workspace m n) : Workspace m n :=
  let pivot := w.working d.row d.column
  w.become (w.working.divideRow d.row d.index pivot) (.normalize d.index pivot)

/-- Clears one other entry of the pivot column. -/
def clearRow (d : Diagonal m n) (w : Workspace m n) (r : Fin m) : Workspace m n :=
  w.eliminate d (w.working r d.column) r

/-- Divides the pivot row by its pivot and clears the pivot column in all other rows. -/
def clearColumn (d : Diagonal m n) (w : Workspace m n) : Workspace m n :=
  (rowsBesides d.row).foldl (clearRow d) (w.normalize d)

/-- Clears one entry below the pivot, unless the factor is already zero. -/
def clearBelowRow (d : Diagonal m n) (pivot : Binary64) (w : Workspace m n) (r : Fin m) :
    Workspace m n :=
  let factor := w.working r d.column / pivot
  if Scalar.isZero factor then w else w.eliminate d factor r

/-- Clears the pivot column below the diagonal. -/
def clearBelow (d : Diagonal m n) (w : Workspace m n) : Workspace m n :=
  (rowsBelow d.row).foldl (clearBelowRow d (w.working d.row d.column)) w

/-- One place of a sweep: pivot, tolerance test, exchange, clearing. -/
def advance (clear : Diagonal m n → Workspace m n → Workspace m n) (tolerance : Binary64)
    (d : Diagonal m n) (w : Workspace m n) : Workspace m n × Option Stall :=
  let p := w.working.pivotRow d.row d.column
  let candidate := Scalar.abs (w.working p d.column)
  if Scalar.lt candidate tolerance then (w, some ⟨d.index, candidate⟩)
  else (clear d ((w.bringUp d.row p).takePivot d), none)

/-- The first `k` places of a sweep over the diagonal. -/
def run (clear : Diagonal m n → Workspace m n → Workspace m n) (tolerance : Binary64)
    (w : Workspace m n) : (k : Nat) → k ≤ m → k ≤ n → Workspace m n × Option Stall
  | 0, _, _ => (w, none)
  | k + 1, hm, hn =>
    match run clear tolerance w k (Nat.le_of_succ_le hm) (Nat.le_of_succ_le hn) with
    | (w, some stall) => (w, some stall)
    | (w, none) => w.advance clear tolerance ⟨k, hm, hn⟩

/-- The signed product of the diagonal. -/
def signedProduct (w : Workspace m n) : Binary64 :=
  let product := Scalar.product w.working.diagonal
  if w.swaps % 2 = 0 then product else -product

/-- What a triangular reduction leaves, with a last copy of its array. -/
def triangulation (w : Workspace m n) (value : Binary64) (singularColumn : Option Nat) :
    StoredTriangulation × Memory :=
  let (triangular, memory) := w.array.snapshot w.memory
  (⟨value, w.sign, w.swaps, triangular, w.pivots, singularColumn, w.log.map List.reverse⟩, memory)

/-- Copies the last column to an array of its own, which may be written to. -/
def takeSolution {n : Nat} (w : Workspace n (n + 1)) : StoredArray × Workspace n (n + 1) :=
  let column := w.working.column (Fin.last n)
  let (solution, memory) := NumericArray.store ⟨[n], column.toList⟩ w.memory
  (solution, { w with memory })

/-- Records the solution and the array that it was read from. -/
def recordFinal {n : Nat} (w : Workspace n (n + 1)) (solution : StoredArray) :
    Workspace n (n + 1) :=
  match w.log with
  | none => w
  | some steps =>
    let (shownSolution, memory) := solution.snapshot w.memory
    let (shown, memory) := w.array.snapshot memory
    { w with memory, log := some (.final shownSolution (some shown) :: steps) }

/-- What a Gauss-Jordan reduction leaves, with a last copy of its array. -/
def reduction {n : Nat} (w : Workspace n (n + 1)) : StoredReduction × Memory :=
  let (solution, w) := w.takeSolution
  let w := w.recordFinal solution
  let (reduced, memory) := w.array.snapshot w.memory
  (⟨solution, reduced, w.swaps, w.pivots, w.log.map List.reverse⟩, memory)

end Workspace

namespace StoredArray

/-- The array as an `m` by `n` tableau. -/
def tableau (A : StoredArray) (μ : Memory) (m n : Nat) : Tableau Binary64 m n :=
  (A.load μ).tableau m n

/-- The array as a vector of length `n`. -/
def vector (b : StoredArray) (μ : Memory) (n : Nat) : Vector Binary64 n := (b.load μ).vector n

/-- Reduces a copy of an array to triangular form and multiplies the diagonal. -/
def triangulate (A : StoredArray) (m n : Nat) (tolerance : Binary64) (recording : Bool)
    (μ : Memory) : StoredTriangulation × Memory :=
  let start := Workspace.start (A.tableau μ m n) recording μ
  match start.run Workspace.clearBelow tolerance (min m n) (Nat.min_le_left m n)
      (Nat.min_le_right m n) with
  | (w, some stall) =>
    let w := w.record (.singularPivot stall.column stall.candidate tolerance)
    w.triangulation .zero (some stall.column)
  | (w, none) =>
    let value := w.signedProduct
    ((w.record (.triangular · w.sign)).note (.determinantValue value none [])).triangulation
      value none

/-- Solves by reducing a copy of two arrays. -/
def gaussJordan (A b : StoredArray) (n : Nat) (tolerance : Binary64) (recording : Bool) :
    EStateM Fault Memory StoredReduction := fun μ =>
  let augmented := (A.tableau μ n n).augment (b.vector μ n)
  let start := (Workspace.start augmented recording μ).record .initial
  match start.run Workspace.clearColumn tolerance n (Nat.le_refl n) (Nat.le_succ n) with
  | (w, some stall) => .error (.noPivot stall.column stall.candidate tolerance) w.memory
  | (w, none) => .ok w.reduction.1 w.reduction.2

/-- A copy of a square array whose column `i` is overwritten with the numbers of `b`. -/
def replaceColumn (A b : StoredArray) {n : Nat} (i : Fin n) (μ : Memory) : StoredArray × Memory :=
  let (replaced, μ) := A.copy μ
  (replaced, replaced.fill ((replaced.tableau μ n n).setColumn i (b.vector μ n)).entries μ)

/-- One unknown by Cramer's rule: the determinant with column `i` replaced, over `divisor`, is
written to entry `i` of `x`. -/
def cramerUnknown (A b x : StoredArray) {n : Nat} (tolerance divisor : Binary64) (recording : Bool)
    (log : Option (List StoredStep)) (i : Fin n) :
    EStateM Fault Memory (Option (List StoredStep)) := do
  let replaced ← modifyGet (A.replaceColumn b i)
  let minor ← modifyGet (replaced.triangulate n n tolerance recording)
  if !Scalar.isFinite minor.value then throw (.determinantRange (some i) minor.value)
  if Scalar.isZero divisor then throw .zeroDivisor
  let value := minor.value / divisor
  modify fun μ => x.fill ((x.vector μ n).set i value i.isLt).toList μ
  match log with
  | none => return none
  | some steps =>
    let shown ← modifyGet replaced.snapshot
    return some (.unknown i minor.value divisor shown (minor.steps?.getD []) value :: steps)

/-- The log that Cramer's rule begins with, which shows the determinant of the system. -/
def cramerLog (A : StoredArray) (main : StoredTriangulation) (recording : Bool) (μ : Memory) :
    Option (List StoredStep) × Memory :=
  if recording then
    let (shown, μ) := A.snapshot μ
    (some [.determinantValue main.value (some shown) (main.steps?.getD [])], μ)
  else (none, μ)

/-- Records the solution. -/
def recordSolution (x : StoredArray) (log : Option (List StoredStep)) (μ : Memory) :
    Option (List StoredStep) × Memory :=
  match log with
  | none => (none, μ)
  | some steps =>
    let (shown, μ) := x.snapshot μ
    (some (.final shown none :: steps), μ)

/-- Solves by Cramer's rule. -/
def cramer (A b : StoredArray) (n : Nat) (tolerance : Binary64) (recording : Bool) :
    EStateM Fault Memory StoredCramerSolution := do
  let main ← modifyGet (A.triangulate n n tolerance recording)
  let log ← modifyGet (A.cramerLog main recording)
  if Scalar.lt (Scalar.abs main.value) tolerance then
    throw (.zeroDeterminant main.value tolerance main.singularColumn)
  if !Scalar.isFinite main.value then throw (.determinantRange none main.value)
  let x ← modifyGet (NumericArray.zeros [n]).store
  let log ← (List.finRange n).foldlM (A.cramerUnknown b x tolerance main.value recording) log
  let log ← modifyGet (x.recordSolution log)
  return ⟨x, main.value, log.map List.reverse⟩

end StoredArray

end RowReduction
