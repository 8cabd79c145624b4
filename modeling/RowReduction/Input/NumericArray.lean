import RowReduction.Input.ElementType.Name
import RowReduction.Input.Shape
import RowReduction.Tableau.Basic

/-!
Arrays of binary64 numbers of any shape, and their making from values. An array is made when the
value has a shape, its leaves become elements of the type that they have in common, and that type is
real; integers beyond 64 bits are objects.
-/
namespace RowReduction

/-- The number of entries of an array. -/
def shapeSize (shape : List Nat) : Nat := shape.foldr (· * ·) 1

/-- Numbers in reading order, with the lengths of the dimensions. -/
structure NumericArray where
  shape : List Nat
  entries : List Binary64

namespace NumericArray

def rank (a : NumericArray) : Nat := a.shape.length

def size (a : NumericArray) : Nat := shapeSize a.shape

def zeros (shape : List Nat) : NumericArray := ⟨shape, List.replicate (shapeSize shape) .zero⟩

/-- The entries as an `m` by `n` tableau. -/
def tableau (a : NumericArray) (m n : Nat) : Tableau Binary64 m n :=
  let entries := a.entries.toArray
  Tableau.ofFn fun i j => entries.getD (i * n + j) .zero

/-- The entries as a vector of length `n`. -/
def vector (a : NumericArray) (n : Nat) : Vector Binary64 n :=
  let entries := a.entries.toArray
  Vector.ofFn fun i => entries.getD i .zero

/-- A position along one axis; negative ones count from the end. -/
def position (index : Int) (axis size : Nat) : Except Fault (Fin size) :=
  let i : Int := if index < 0 then index + size else index
  if h : 0 ≤ i ∧ i.toNat < size then .ok ⟨i.toNat, h.2⟩
  else .error (.indexOutOfBounds index axis size)

/-- A column of shape `(n, 1)` as a vector; other arrays stay as they are. -/
def flattenColumn (a : NumericArray) : NumericArray :=
  match a.shape with
  | [n, 1] => ⟨[n], a.entries⟩
  | _ => a

end NumericArray

namespace Value

/-- The element type of a single value. Integers go with 64 bits, with a sign if they fit. -/
def leafType : Value → ElementType
  | bool _ => .boolean
  | int i =>
    if -0x8000000000000000 ≤ i && i < 0x8000000000000000 then .integer true .w64
    else if 0 ≤ i && i < 0x10000000000000000 then .integer false .w64
    else .object
  | float _ => .real .double
  | complex .. => .complex .double
  | text s => .text s.length
  | bytes bs => .bytes bs.length
  | _ => .object

mutual

/-- The element types that a value brings, in reading order. An array brings one type, whatever its
elements. -/
def types : Value → List StoredType
  | list items => typesOf items
  | array type _ _ => [type]
  | v => [⟨v.leafType, false⟩]

def typesOf : List Value → List StoredType
  | [] => []
  | v :: rest => v.types ++ typesOf rest

end

end Value

namespace Value

/-- Only ASCII bytes are characters. -/
def requireDecodable (bs : List UInt8) : Except ElementProblem Unit :=
  match bs.findIdx? (128 ≤ ·) with
  | some i => .error (.undecodableByte (bs.getD i 0).toNat i)
  | Option.none => .ok ()

/-- Bytes have to be decodable where they stand among texts. Other elements always have a form in
the type in common. -/
def requireElements (v : Value) (common : ElementType) : Except ElementProblem Unit :=
  match common with
  | .text _ => v.leaves.forM fun
    | bytes bs => requireDecodable bs
    | _ => .ok ()
  | _ => .ok ()

/-- An element of a type as it is counted in another unit of time. -/
def countedIn (unit : TimeUnit) (type : ElementType) (v : Value) : Value :=
  match type, v with
  | .duration (some u), int i =>
    if i = Moment.unknown then int i else int (TimeUnit.recount u unit i)
  | _, v => v

mutual

/-- A value whose arrays of durations count the given unit of time. -/
def inUnit (unit : TimeUnit) : Value → Value
  | list items => list (inUnitAll unit items)
  | array type shape elements => array type shape (elements.map (countedIn unit type.element))
  | v => v

def inUnitAll (unit : TimeUnit) : List Value → List Value
  | [] => []
  | v :: rest => v.inUnit unit :: inUnitAll unit rest

end

/-- A value with its durations in the unit that the common type of its leaves counts. -/
def withCommonUnit (v : Value) (common : ElementType) : Value :=
  match common with
  | .duration (some unit) => v.inUnit unit
  | _ => v

end Value

/-- Accepts real elements only. -/
def StoredType.requireReal (type : StoredType) (name : String) : Except Fault Unit :=
  match type.element with
  | .object => .error (.objectElements name)
  | .complex _ => .error (.complexElements name type.name)
  | element => if element.isReal then .ok () else .error (.nonNumericElements name type.name)

/-- The array a value stands for. An array keeps its own element type; for nested lists the types of
the leaves decide. -/
def Value.toArray (v : Value) (name : String) : Except Fault NumericArray :=
  match v with
  | .array type shape elements => do
    type.requireReal name
    return ⟨shape, elements.map Value.number⟩
  | v => do
    let shape ← v.arrayShape name
    let common := StoredType.common v.types
    (v.requireElements common.element).mapError fun problem => .noShape name (.element problem)
    common.requireReal name
    return ⟨shape, (v.withCommonUnit common.element).leaves.map Value.number⟩

end RowReduction
