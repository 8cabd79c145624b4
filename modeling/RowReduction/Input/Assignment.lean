import RowReduction.Input.Broadcast
import RowReduction.Input.Reading

/-!
Overwriting entries of an array of numbers. Indices that reach a single entry take one number;
fewer indices reach a block of entries, whose entries are counted in reading order, and over which a
value is spread. The place is looked up before the value is read.
-/
namespace RowReduction

namespace Value

/-- The number that an element of an array is when it is written as a number. -/
def castElement (type : ElementType) (v : Value) : Except Fault Binary64 :=
  match type, v with
  | _, none => .ok .nan
  | .complex _, complex re _ => .ok re
  | .text _, text s =>
    match Numeral.ofText? s with
    | some x => .ok x
    | Option.none => .error (.unreadableNumber ("np.str_(" ++ (text s).display ++ ")"))
  | .bytes _, bytes bs =>
    match Numeral.ofBytes? bs with
    | some x => .ok x
    | Option.none => .error (.unreadableNumber ("np.bytes_(" ++ (bytes bs).display ++ ")"))
  | .raw _, bytes bs =>
    match Numeral.ofBytes? bs with
    | some x => .ok x
    | Option.none => .error .sequenceForEntry
  | .object, list _ => .error .sequenceForEntry
  | .object, v => v.real
  | _, v => .ok v.number

/-- The number that a value writes to a single entry. Nothing writes not-a-number. -/
def entryNumber : Value → Except Fault Binary64
  | none => .ok .nan
  | list _ => .error .sequenceForEntry
  | array type [] [v] => v.castElement type.element
  | array .. => .error .sequenceForEntry
  | v => v.single

mutual

/-- What each leaf of a value writes to an entry, in reading order. -/
def entryNumbers : Value → List (Except Fault Binary64)
  | list items => entryNumbersOf items
  | array type _ elements => elements.map (castElement type.element)
  | v => [v.entryNumber]

def entryNumbersOf : List Value → List (Except Fault Binary64)
  | [] => []
  | v :: rest => v.entryNumbers ++ entryNumbersOf rest

end

/-- What a value writes to each entry of a block. Lists in another shape than that of the block are
put together first, with all of their numbers. -/
def blockNumbers (v : Value) (block : List Nat) : Except Fault (List (Except Fault Binary64)) := do
  match v with
  | array _ shape _ => spread block shape v.entryNumbers
  | v =>
    match Survey.visit 0 (.start block.length) v with
    | .error (refusal, reason) => throw (.refused refusal reason)
    | .ok survey =>
      if let some problem := survey.problem? block.length then throw (.unshapelyEntries problem)
      if survey.dimensions = block then return v.entryNumbers
      else
        let numbers ← v.entryNumbers.mapM id
        spread block survey.dimensions (numbers.map .ok)

end Value

/-- The numbers up to the first fault, and that fault. -/
def untilFault : List (Except Fault Binary64) → List Binary64 × Option Fault
  | [] => ([], none)
  | .error fault :: _ => ([], some fault)
  | .ok x :: rest =>
    let (numbers, fault?) := untilFault rest
    (x :: numbers, fault?)

namespace NumericArray

/-- The place of the block at leading indices, among blocks of the same size. -/
def blockIndex (start axis : Nat) : List Int → List Nat → Except Fault Nat
  | [], _ => .ok start
  | index :: indices, size :: shape => do
    let i ← position index axis size
    blockIndex (start * size + i) (axis + 1) indices shape
  | _ :: _, [] => .error (.indexOutOfBounds 0 axis 0)

/-- The place of the entry `offset` of the block at leading indices. -/
def entryPlace (shape : List Nat) (indices : List Int) (offset : Nat) : Except Fault Nat := do
  if shape.length < indices.length then throw (.tooManyIndices shape.length indices.length)
  let place ← blockIndex 0 0 indices shape
  let size := shapeSize (shape.drop indices.length)
  return place * size + (← position offset 0 size)

/-- The array with one entry overwritten: the entry `offset` of the block at leading indices, which
is a single entry when there are as many indices as dimensions. -/
def setEntry (a : NumericArray) (indices : List Int) (offset : Nat) (v : Value) :
    Except Fault NumericArray := do
  let place ← entryPlace a.shape indices offset
  let x ← v.entryNumber
  return ⟨a.shape, a.entries.set place x⟩

/-- What a value writes to each entry of the block at leading indices. -/
def blockWrites (a : NumericArray) (indices : List Int) (v : Value) :
    Except Fault (List (Except Fault Binary64)) := do
  let _ ← blockIndex 0 0 indices a.shape
  v.blockNumbers (a.shape.drop indices.length)

end NumericArray

end RowReduction
