import RowReduction.Decimal.Format
import RowReduction.Fault.Element

/-!
Everything that can go wrong, by cause. A fault keeps the values that led to it; its message and its
kind are functions of the cause.
-/
namespace RowReduction

/-- A shape as it is shown: `()`, `(3,)`, `(2, 3)`. -/
def shapeText : List Nat → String
  | [] => "()"
  | [n] => "(" ++ toString n ++ ",)"
  | shape => "(" ++ ", ".intercalate (shape.map toString) ++ ")"

/-- A shape as it is shown without blanks: `()`, `(3,)`, `(2,3)`. -/
def compactShapeText (shape : List Nat) : String :=
  String.ofList ((shapeText shape).toList.filter (· ≠ ' '))

/-- That an array of one shape cannot be spread over another one. -/
def broadcastComplaint (source target : List Nat) : String :=
  "could not broadcast input array from shape " ++ compactShapeText source ++ " into shape " ++
    compactShapeText target

/-- Whether a refusal to become an array concerns the type or the shape. -/
inductive Refusal where
  | type
  | shape
deriving DecidableEq

/-- Why a value does not become an array. -/
inductive ShapeProblem where
  /-- An object gave its own reason. -/
  | refused (reason : String)
  /-- Lists of different lengths, or numbers beside lists, below the given shape. -/
  | ragged (shape : List Nat)
  /-- More than the given number of dimensions. -/
  | tooDeep (limit : Nat)
  /-- An array that has more dimensions than what it stands beside. -/
  | overhang (source target : List Nat)
  /-- An element does not become one of the type that all have in common. -/
  | element (problem : ElementProblem)
deriving DecidableEq

namespace ShapeProblem

/-- The first words of the complaint about nested lists. -/
def nestingComplaint : String := "setting an array element with a sequence. The requested array "

def message : ShapeProblem → String
  | refused reason => reason
  | ragged shape =>
    nestingComplaint ++ "has an inhomogeneous shape after " ++ toString shape.length ++
      " dimensions. The detected shape was " ++ shapeText shape ++ " + inhomogeneous part."
  | tooDeep limit =>
    nestingComplaint ++ "would exceed the maximum number of dimension of " ++ toString limit ++ "."
  | overhang source target => broadcastComplaint source target
  | element problem => problem.message

end ShapeProblem

/-- The cause of a fault. -/
inductive Fault where
  /-- An object refused to become an array and said why. -/
  | notAnArray (name text : String)
  | noShape (name : String) (problem : ShapeProblem)
  | objectElements (name : String)
  | complexElements (name type : String)
  | nonNumericElements (name type : String)
  | nonFinite (name : String) (nans infinities : Nat)
  | wrongRank (name : String) (expected : Nat) (shape : List Nat)
  | emptyArray (name : String) (shape : List Nat)
  | notSquare (name : String) (rows columns : Nat)
  /-- Rows and columns were asked of an array that is no rectangle. -/
  | notRectangular (rank : Nat)
  | unequalLengths (lengths : List (String × Nat))
  | unnamedArrays (arrays names : Nat)
  /-- The length of an array without dimensions was asked for. -/
  | noLength
  | notReal (name shown : String)
  /-- A text that spells no number was to be read as one. -/
  | unreadableNumber (shown : String)
  /-- A value of a kind that stands for no real number was to be read as one. -/
  | noRealNumber (typeName : String)
  /-- A value cannot be an element of the type that an array is to have. -/
  | element (problem : ElementProblem)
  | unknownType (name : String)
  /-- Elements were to be put into a shape for another number of them. Negative lengths are left
  open. -/
  | wrongSize (size : Nat) (shape : List Int)
  | manyOpenLengths
  /-- An object refused to become an array and said why. -/
  | refused (refusal : Refusal) (reason : String)
  /-- A number was compared with a value of a kind that has no order with numbers. -/
  | noOrder (typeName : String)
  /-- A number was compared with texts or bytes, element by element. -/
  | noComparison (elements : String)
  /-- An array with dimensions was to be read as one number. -/
  | manyNumbers
  /-- A truth value was asked of an array that has not exactly one element. -/
  | ambiguousTruth (size : Nat)
  | toleranceOutOfRange (name : String) (value : Binary64)
  | integerTooLarge
  | unknownMethod (shown : String)
  | rightHandSideGiven
  | rightHandSideMissing
  | noPivot (column : Nat) (candidate tolerance : Binary64)
  | zeroDeterminant (determinant tolerance : Binary64) (column : Option Nat)
  /-- A determinant is outside the range: that of the system, or with a column replaced. -/
  | determinantRange (replaced : Option Nat) (determinant : Binary64)
  | zeroDivisor
  | indexOutOfBounds (index : Int) (axis size : Nat)
  | tooManyIndices (rank indices : Nat)
  | noCandidates
  | cannotBroadcast (source target : List Nat)
  /-- A list or an array was to be written to a single entry. -/
  | sequenceForEntry
  /-- Nested lists were to be written to a block of entries. -/
  | unshapelyEntries (problem : ShapeProblem)
  /-- The inner lengths of the two factors of a product differ. -/
  | innerLengths (left right : Nat)
  /-- A factor of a product, counted from zero, has no dimensions. -/
  | scalarFactor (factor : Nat)
  /-- Two arrays cannot be combined entry by entry. -/
  | unlikeShapes (left right : List Nat)
  /-- The diagonal of an array of more than two dimensions was asked for. -/
  | noDiagonal
  | readOnly
  | stoppedBeforeStart
  | resultBeforeStop
  | nothingOpen
  | noSolution

namespace Fault

def kind : Fault → FaultKind
  | notAnArray .. | objectElements .. | complexElements .. | nonNumericElements .. | nonFinite ..
  | notReal .. | toleranceOutOfRange .. | unknownMethod .. | rightHandSideGiven
  | rightHandSideMissing => .validation
  | noShape .. | wrongRank .. | emptyArray .. | notSquare .. | unequalLengths .. => .dimension
  | noPivot .. | zeroDeterminant .. => .singularMatrix
  | determinantRange .. => .numerical
  | unnamedArrays .. | notRectangular .. | noCandidates | cannotBroadcast .. | readOnly
  | unreadableNumber .. | ambiguousTruth .. | sequenceForEntry | unshapelyEntries ..
  | innerLengths .. | scalarFactor .. | unlikeShapes .. | noDiagonal | wrongSize ..
  | manyOpenLengths | refused .shape _ => .badArgument
  | noRealNumber .. | noOrder .. | manyNumbers | unknownType .. | refused .type _ => .wrongType
  | noLength | indexOutOfBounds .. | tooManyIndices .. => .outOfBounds
  | noComparison _ => .incomparable
  | integerTooLarge => .tooLarge
  | element problem => problem.kind
  | zeroDivisor => .zeroDivision
  | stoppedBeforeStart | resultBeforeStop | nothingOpen | noSolution => .misuse

/-- The system's matrix is `A`; with column `i` replaced it is `Ai`, counting from one. -/
def matrixLabel : Option Nat → String
  | none => "A"
  | some i => "A" ++ toString (i + 1)

/-- A shape with open lengths, which are left out in front. -/
def openShapeText (shape : List Int) : String :=
  let lengths := (shape.dropWhile (· < 0)).map fun n => if n < 0 then "newaxis" else toString n
  "(" ++ ",".intercalate lengths ++ (if shape.length = 1 then ",)" else ")")

/-- The shapes of two factors and of their product. -/
def productSignature : String := "(n?,k),(k,m?)->(n?,m?)"

def message : Fault → String
  | notAnArray name text => name ++ ": cannot convert to array: " ++ text
  | noShape name problem =>
    name ++ ": ragged or inconsistent shape, cannot form an array: " ++ problem.message
  | objectElements name =>
    name ++ ": converted to object dtype, indicating mixed types or non-numeric data"
  | complexElements name type =>
    name ++ ": complex dtype " ++ type ++ ", only real systems are supported"
  | nonNumericElements name type =>
    name ++ ": non-numeric dtype " ++ type ++ ", expected numeric data"
  | nonFinite name nans infinities =>
    name ++ ": contains non-finite values (" ++ toString nans ++ " NaN, " ++
      toString infinities ++ " Inf)"
  | wrongRank name expected shape =>
    name ++ ": expected " ++ toString expected ++ "D array, got " ++ toString shape.length ++
      "D with shape " ++ shapeText shape
  | emptyArray name shape => name ++ ": empty array with shape " ++ shapeText shape
  | notSquare name rows columns =>
    name ++ ": expected a square matrix, got " ++ toString rows ++ " rows x " ++
      toString columns ++ " columns"
  | notRectangular rank =>
    if rank < 2 then
      "not enough values to unpack (expected 2, got " ++ toString rank ++ ")"
    else "too many values to unpack (expected 2)"
  | unequalLengths lengths =>
    "Inconsistent lengths: " ++
      ", ".intercalate (lengths.map fun (name, length) => name ++ "=" ++ toString length)
  | unnamedArrays arrays names =>
    "Number of arrays (" ++ toString arrays ++ ") must match number of names (" ++
      toString names ++ ")"
  | noLength => "tuple index out of range"
  | notReal name shown => name ++ ": expected a real number, got " ++ shown
  | unreadableNumber shown => "could not convert string to float: " ++ shown
  | noRealNumber typeName =>
    "float() argument must be a string or a real number, not '" ++ typeName ++ "'"
  | element problem => problem.message
  | unknownType name => "data type " ++ quoteText name ++ " not understood"
  | wrongSize size shape =>
    "cannot reshape array of size " ++ toString size ++ " into shape " ++ openShapeText shape
  | manyOpenLengths => "can only specify one unknown dimension"
  | refused _ reason => reason
  | noOrder typeName =>
    "'<' not supported between instances of 'float' and '" ++ typeName ++ "'"
  | noComparison elements =>
    "ufunc 'less' did not contain a loop with signature matching types " ++
      "(<class 'numpy.dtypes.Float64DType'>, <class 'numpy.dtypes." ++ elements ++ "'>) -> None"
  | manyNumbers => "only 0-dimensional arrays can be converted to Python scalars"
  | ambiguousTruth size =>
    if size = 0 then
      "The truth value of an empty array is ambiguous. " ++
        "Use `array.size > 0` to check that an array is not empty."
    else
      "The truth value of an array with more than one element is ambiguous. " ++
        "Use a.any() or a.all()"
  | toleranceOutOfRange name value =>
    name ++ ": must be positive and finite, got " ++ value.shortestText
  | integerTooLarge => "int too large to convert to float"
  | unknownMethod shown => "Unknown method: " ++ shown
  | rightHandSideGiven => "b must be None when A is a LinearSystemDesign"
  | rightHandSideMissing => "b required when A is an array"
  | noPivot column candidate tolerance =>
    "Matrix is singular or nearly singular: largest pivot candidate in column " ++
      toString (column + 1) ++ " is " ++ candidate.generalText 3 ++ " (tolerance " ++
      tolerance.generalText 3 ++ ")"
  | zeroDeterminant determinant tolerance _ =>
    "Determinant is zero (det(A)=" ++ determinant.generalText 3 ++ ", tolerance " ++
      tolerance.generalText 3 ++ "): the system has no unique solution"
  | determinantRange replaced determinant =>
    "det(" ++ matrixLabel replaced ++ ") = " ++ determinant.shortestText ++
      " is outside the float64 range; Cramer's Rule cannot form the ratio. " ++
      "Rescale the system or use method='gauss_jordan'."
  | zeroDivisor => "float division by zero"
  | indexOutOfBounds index axis size =>
    "index " ++ toString index ++ " is out of bounds for axis " ++ toString axis ++
      " with size " ++ toString size
  | tooManyIndices rank indices =>
    "too many indices for array: array is " ++ toString rank ++ "-dimensional, but " ++
      toString indices ++ " were indexed"
  | noCandidates => "attempt to get argmax of an empty sequence"
  | cannotBroadcast source target => broadcastComplaint source target
  | sequenceForEntry => "setting an array element with a sequence."
  | unshapelyEntries problem => problem.message
  | innerLengths left right =>
    "matmul: Input operand 1 has a mismatch in its core dimension 0, with gufunc signature " ++
      productSignature ++ " (size " ++ toString right ++ " is different from " ++ toString left ++
      ")"
  | scalarFactor factor =>
    "matmul: Input operand " ++ toString factor ++
      " does not have enough dimensions (has 0, gufunc core with signature " ++
      productSignature ++ " requires 1)"
  | unlikeShapes left right =>
    "operands could not be broadcast together with shapes " ++ compactShapeText left ++ " " ++
      compactShapeText right ++ " "
  | noDiagonal => "Input must be 1- or 2-d."
  | readOnly => "assignment destination is read-only"
  | stoppedBeforeStart => "Timer.stop() called before start()"
  | resultBeforeStop => "Timer.result() called before stop()"
  | nothingOpen => "no section is open"
  | noSolution => "nothing has been solved"

end Fault

/-- Continues with evidence that the condition holds, and fails otherwise. -/
def require (p : Prop) [Decidable p] (fault : Fault) : Except Fault (PLift p) :=
  if h : p then .ok ⟨h⟩ else .error fault

end RowReduction
