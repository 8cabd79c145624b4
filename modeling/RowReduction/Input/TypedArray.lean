import RowReduction.Input.NumericArray
import RowReduction.Input.Reading
import RowReduction.Moment.Reading

/-!
Arrays that carry an element type. A caller may hand in such an array as a matrix or as a right-hand
side, and a call looks at its type before it looks at its elements. Here they are made, from a value:
each leaf becomes an element of the type, or the making fails. Where the type leaves a width or a unit
open, the leaves decide.
-/
namespace RowReduction

namespace WordSize

/-- How many values a word has. -/
def values (size : WordSize) : Nat := 1 <<< (8 * size.bytes)

/-- Whether an integer is one of the values of a word. -/
def fits (size : WordSize) (signed : Bool) (i : Int) : Bool :=
  if signed then -(size.values : Int) ≤ 2 * i && 2 * i < size.values
  else 0 ≤ i && i < size.values

end WordSize

namespace Value

/-- A leaf as a text. -/
def spelled : Value → List Char
  | text s => s.toList
  | bytes bs => bs.map fun b => Char.ofNat b.toNat
  | v => v.display.toList

/-- Only ASCII characters are bytes. -/
def requireEncodable (cs : List Char) : Except ElementProblem Unit :=
  let isWide (c : Char) : Bool := 128 ≤ c.toNat
  match cs.dropWhile (!isWide ·) with
  | c :: rest =>
    .error (.unencodableCharacters c (cs.takeWhile (!isWide ·)).length
      (1 + (rest.takeWhile isWide).length))
  | [] => .ok ()

/-- A leaf as an element of integers: the integer that it stands for, which has to be one of their
values. -/
def wordElement (signed : Bool) (size : WordSize) (v : Value) : Except ElementProblem Int := do
  let i ← v.integer
  if size.fits signed i then return i
  else if WordSize.w64.fits true i then
    throw (.integerOutOfBounds i (ElementType.integer signed size).plainName)
  else throw .integerBeyondWord

/-- A count of units of time that fits a word. -/
def countElement (i : Int) : Except ElementProblem Int :=
  if WordSize.w64.fits true i then .ok i else .error .countTooBig

/-- A leaf as a moment that is counted in a unit. -/
def momentElement (unit : Option TimeUnit) (v : Value) : Except ElementProblem Int :=
  let ofText (cs : List Char) : Except ElementProblem Int :=
    if MomentText.isUnknown cs then .ok Moment.unknown
    else
      match unit with
      | some unit => (MomentText.read cs).map (·.count unit)
      | Option.none => .error .momentWithoutUnit
  let ofCount (i : Int) : Except ElementProblem Int :=
    if unit.isNone then .error .countWithoutUnit else countElement i
  match v with
  | none => .ok Moment.unknown
  | bool b => ofCount (if b then 1 else 0)
  | int i => ofCount i
  | text _ | bytes _ => ofText v.spelled
  | _ => .error .noMoment

/-- A leaf as a duration. A text spells an integer, with blanks in front of it only; one that is too
large spells the nearest count that fits. -/
def durationElement (v : Value) : Except ElementProblem Int :=
  match v with
  | none => .ok Moment.unknown
  | bool b => .ok (if b then 1 else 0)
  | int i => countElement i
  | text _ | bytes _ =>
    if MomentText.isUnknown v.spelled then .ok Moment.unknown
    else
      match Numeral.integer? (v.spelled.dropWhile isAsciiBlank) with
      | some i => .ok (max Moment.unknown (min i (-Moment.unknown - 1)))
      | Option.none => .error .noDuration
  | _ => .error .noDuration

/-- The unit that a leaf shows as a moment. -/
def shownUnit? (v : Value) : Option TimeUnit :=
  match v with
  | text _ | bytes _ =>
    if MomentText.isUnknown v.spelled then Option.none
    else
      match MomentText.read v.spelled with
      | .ok m => some ⟨m.scale, 1⟩
      | .error _ => Option.none
  | _ => Option.none

/-- The unit that leaves show as moments. -/
def commonUnit (unit : Option TimeUnit) : List Value → Except ElementProblem (Option TimeUnit)
  | [] => .ok unit
  | v :: rest =>
    match unit, v.shownUnit? with
    | some u, some w =>
      match w.ofMoments? u with
      | some common => commonUnit common rest
      | Option.none => .error (.noCommonUnit w.name u.name)
    | u, w => commonUnit (u.or w) rest

/-- A leaf as a complex number. -/
def complexElement (f : BinaryFormat) (v : Value) : Except Fault Value :=
  match v with
  | none => .ok (complex .nan .nan)
  | complex re im => .ok (complex (f.round re) (f.round im))
  | text _ | bytes _ =>
    match Numeral.complexOfText? (String.ofList v.spelled) with
    | some (re, im) => .ok (complex (f.round re) (f.round im))
    | Option.none => .error (.element .unreadableComplex)
  | v => v.single.map fun x => complex (f.round x) .zero

end Value

namespace ElementType

/-- Removes the end of a list that consists of one item. -/
def dropEnd {α : Type} [DecidableEq α] (x : α) (xs : List α) : List α :=
  (xs.reverse.dropWhile (· = x)).reverse

/-- The type with a width and a unit that hold the given leaves. -/
def fitted (type : ElementType) (leaves : List Value) : Except Fault ElementType :=
  let widest := leaves.foldl (fun w v => max w v.spelled.length) 0
  match type with
  | text 0 => .ok (text widest)
  | bytes 0 => .ok (bytes widest)
  | raw 0 => .ok (raw widest)
  | moment none => ((Value.commonUnit none leaves).mapError Fault.element).map moment
  | type => .ok type

/-- A leaf as an element of the type. -/
def convert (type : ElementType) (v : Value) : Except Fault Value :=
  let checked {α : Type} (result : Except ElementProblem α) : Except Fault α :=
    result.mapError Fault.element
  match type, v with
  | boolean, v => .ok (.bool v.holds)
  | integer signed size, v => (checked (v.wordElement signed size)).map .int
  | real _, .none => .ok (.float .nan)
  | real f, v => v.single.map fun x => .float (f.binary.round x)
  | complex f, v => v.complexElement f.binary
  | text w, v => do
    if let .bytes bs := v then checked (Value.requireDecodable bs)
    return .text (String.ofList (dropEnd (Char.ofNat 0) (v.spelled.take w)))
  | bytes w, .bytes bs => .ok (.bytes (dropEnd 0 (bs.take w)))
  | bytes w, v => do
    checked (Value.requireEncodable v.spelled)
    return .bytes (dropEnd 0 ((v.spelled.map fun c => UInt8.ofNat c.toNat).take w))
  | raw w, .bytes bs => .ok (.bytes ((bs ++ List.replicate w 0).take w))
  | raw _, v => .error (.element (.noBytes v.kindName))
  | moment unit, v => (checked (v.momentElement unit)).map .int
  | duration _, v => (checked v.durationElement).map .int
  | object, v => .ok v

end ElementType

/-- A shape for so many elements, in which one length can be left open by a negative number. -/
def closedShape (size : Nat) (shape : List Int) : Except Fault (List Nat) :=
  let known := shapeSize ((shape.filter (0 ≤ ·)).map Int.toNat)
  match shape.filter (· < 0) with
  | [] => if known = size then .ok (shape.map Int.toNat) else .error (.wrongSize size shape)
  | [_] =>
    if known = 0 || size % known ≠ 0 then .error (.wrongSize size shape)
    else .ok (shape.map fun n => if n < 0 then size / known else n.toNat)
  | _ => .error .manyOpenLengths

/-- The array of a named type with the leaves of a value, in the shape of the value unless another
one is given. Lists that have no shape in common are elements of an array of objects. -/
def Value.typed (typeName : String) (data : Value) (shape : Option (List Int)) :
    Except Fault Value := do
  let type ← match StoredType.ofName? typeName with
    | some type => pure type
    | Option.none => throw (.unknownType typeName)
  let survey ← match Survey.visit 0 (.start maxRank) data with
    | .ok survey => pure survey
    | .error (refusal, reason) => throw (.refused refusal reason)
  if type.element ≠ .object then
    if let .error problem := data.surveyedShape survey then throw (.unshapelyEntries problem)
  let leaves := data.itemsAt survey.dimensions.length
  let element ← type.element.fitted leaves
  let elements ← leaves.mapM element.convert
  let shape ← match shape with
    | some shape => closedShape elements.length shape
    | Option.none => pure survey.dimensions
  return .array { type with element } shape elements

end RowReduction
