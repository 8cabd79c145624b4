import RowReduction.Binary64.Format
import RowReduction.Moment.Unit

/-!
The element types of arrays, and the type that two of them have in common. Numbers go with wider
numbers, numbers and bytes go with texts wide enough to spell them, and what has nothing in common
is held as objects.
-/
namespace RowReduction

/-- The number of bits of an integer. -/
inductive WordSize where
  | w8
  | w16
  | w32
  | w64
deriving DecidableEq

namespace WordSize

def bytes : WordSize → Nat
  | w8 => 1
  | w16 => 2
  | w32 => 4
  | w64 => 8

def max (a b : WordSize) : WordSize := if a.bytes < b.bytes then b else a

/-- The next larger size. -/
def next? : WordSize → Option WordSize
  | w8 => some w16
  | w16 => some w32
  | w32 => some w64
  | w64 => none

/-- The most digits of an integer without a sign. -/
def digits : WordSize → Nat
  | w8 => 3
  | w16 => 5
  | w32 => 10
  | w64 => 20

end WordSize

/-- The format of real numbers, and of the parts of complex ones. -/
inductive RealFormat where
  | half
  | single
  | double
  | extended
deriving DecidableEq

namespace RealFormat

def bytes : RealFormat → Nat
  | half => 2
  | single => 4
  | double => 8
  | extended => 16

def max (f g : RealFormat) : RealFormat := if f.bytes < g.bytes then g else f

/-- The format whose numbers are kept. An extended number is kept as a double one. -/
def binary : RealFormat → BinaryFormat
  | half => .half
  | single => .single
  | double | extended => .double

/-- The decimal digits that every number of the format can keep. -/
def decimalDigits : RealFormat → Nat
  | half => 3
  | single => 6
  | double => 15
  | extended => 18

/-- The least format that holds all integers of a size, or the double format if none does. -/
def ofWord : WordSize → RealFormat
  | .w8 => half
  | .w16 => single
  | .w32 | .w64 => double

/-- The width of the text of a number. -/
def textWidth : RealFormat → Nat
  | extended => 48
  | _ => 32

end RealFormat

/-- What an array can hold. Widths count characters or bytes; moments and durations count a unit of
time, and where there is none it goes with any other. -/
inductive ElementType where
  | boolean
  | integer (signed : Bool) (size : WordSize)
  | real (format : RealFormat)
  | complex (format : RealFormat)
  | text (width : Nat)
  | bytes (width : Nat)
  | raw (width : Nat)
  | moment (unit : Option TimeUnit)
  | duration (unit : Option TimeUnit)
  | object
deriving DecidableEq

namespace ElementType

/-- Real numbers, and what counts as real numbers. -/
def isReal : ElementType → Bool
  | boolean | integer .. | real _ | duration _ => true
  | _ => false

/-- The width that an element needs as text, where it can become one. -/
def textWidth? : ElementType → Option Nat
  | boolean => some 5
  | integer signed size => some (if signed then size.digits + 1 else size.digits)
  | real f => some f.textWidth
  | complex f => some (2 * f.textWidth)
  | text w | bytes w => some w
  | _ => none

/-- The type of the integers of two types: with a sign if one has it, and large enough for both. -/
def joinIntegers (signed : Bool) (a : WordSize) (signed' : Bool) (b : WordSize) : ElementType :=
  if signed = signed' then integer signed (a.max b)
  else
    let (withSign, without) := if signed then (a, b) else (b, a)
    if without.bytes < withSign.bytes then integer true withSign
    else
      match without.next? with
      | some size => integer true size
      | none => real .double

/-- The type that the elements of two types have in common; objects, if there is no other. -/
def join : ElementType → ElementType → ElementType
  | text w, t | t, text w =>
    match t.textWidth? with
    | some v => text (max w v)
    | none => object
  | bytes w, t | t, bytes w =>
    match t.textWidth? with
    | some v => bytes (max w v)
    | none => object
  | boolean, complex f | complex f, boolean => complex f
  | boolean, t | t, boolean => if t.isReal then t else object
  | integer s a, integer t b => joinIntegers s a t b
  | integer _ a, real f | real f, integer _ a => real (f.max (.ofWord a))
  | integer _ a, complex f | complex f, integer _ a => complex (f.max (.ofWord a))
  | integer s a, duration u | duration u, integer s a =>
    if s || a ≠ .w64 then duration u else object
  | real f, real g => real (f.max g)
  | real f, complex g | complex g, real f | complex f, complex g => complex (f.max g)
  | moment (some u), moment (some v) | moment (some u), duration (some v)
  | duration (some u), moment (some v) =>
    match u.ofMoments? v with
    | some unit => moment unit
    | none => object
  | moment u, moment v | moment u, duration v | duration u, moment v => moment (u.or v)
  | duration (some u), duration (some v) =>
    match u.ofSpans? v with
    | some unit => duration unit
    | none => object
  | duration u, duration v => duration (u.or v)
  | raw w, raw v => if w = v then raw w else object
  | _, _ => object

end ElementType

/-- An element type with the order of its bytes, which shows in its name only. -/
structure StoredType where
  element : ElementType
  swapped : Bool := false
deriving DecidableEq

namespace StoredType

/-- The common type of the given types, taken from left to right; the byte order of a single one is
kept. Without any the elements are double numbers. -/
def common : List StoredType → StoredType
  | [] => ⟨.real .double, false⟩
  | first :: rest => rest.foldl (fun s t => ⟨s.element.join t.element, false⟩) first

end StoredType

end RowReduction
