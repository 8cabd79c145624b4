import RowReduction.Binary64.Conversion
import RowReduction.Fault
import RowReduction.Input.ElementType.Basic

/-!
Values as callers hand them in: nothing, truth values, integers of any size, numbers, texts, bytes,
nested lists, arrays that already have an element type, and objects that refuse to become arrays.
-/
namespace RowReduction

inductive Value where
  | none
  | bool (b : Bool)
  | int (i : Int)
  | float (x : Binary64)
  | complex (re im : Binary64)
  | text (s : String)
  | bytes (bytes : List UInt8)
  | list (items : List Value)
  /-- An array with its elements in reading order. A moment or a duration is an integer, which
  counts units. -/
  | array (type : StoredType) (shape : List Nat) (elements : List Value)
  | refusing (refusal : Refusal) (text : String)

namespace Value

instance : Inhabited Value := ⟨.none⟩

/-- What kind of value it is, as it is named in messages. -/
def kindName : Value → String
  | none => "NoneType"
  | bool _ => "bool"
  | int _ => "int"
  | float _ => "float"
  | complex .. => "complex"
  | text _ => "str"
  | bytes _ => "bytes"
  | list _ => "list"
  | array .. => "numpy.ndarray"
  | refusing .. => "object"

/-- A leaf as a number; leaves that are not real give not-a-number. -/
def number : Value → Binary64
  | bool b => if b then .one else .zero
  | int i => .ofInt i
  | float x => x
  | _ => .nan

/-- A leaf as a complex number, real part first. -/
def parts : Value → Binary64 × Binary64
  | complex re im => (re, im)
  | v => (v.number, .zero)

/-- Whether a single value counts as true: nothing, zeros and empty things do not. -/
def holds : Value → Bool
  | none => false
  | bool b => b
  | int i => i != 0
  | float x => !x.isZero
  | complex re im => !(re.isZero && im.isZero)
  | text s => !s.isEmpty
  | bytes bs => !bs.isEmpty
  | list items => !items.isEmpty
  | array .. => true
  | refusing .. => true

/-- Whether an element of an array counts as true. Raw bytes do when one of them is not zero. -/
def elementHolds (type : ElementType) (v : Value) : Bool :=
  match type, v with
  | .raw _, bytes bs => bs.any (· != 0)
  | _, v => v.holds

/-- Whether a value counts as true where a truth value is asked for. An array has a truth value when
it has exactly one element. -/
def truth : Value → Except Fault Bool
  | array type _ [v] => .ok (v.elementHolds type.element)
  | array _ _ elements => .error (.ambiguousTruth elements.length)
  | v => .ok v.holds

/-- Whether a value equals a text. An array is compared element by element, and that is one answer
when it has exactly one element. -/
def equalsText (v : Value) (s : String) : Except Fault Bool :=
  match v with
  | text t => .ok (t = s)
  | array _ _ [text t] => .ok (t = s)
  | array _ _ [_] => .ok false
  | array _ _ elements => .error (.ambiguousTruth elements.length)
  | _ => .ok false

/-- The value wrapped in `k` lists of one element each. -/
def nest : Nat → Value → Value
  | 0, v => v
  | k + 1, v => .list [nest k v]

end Value

end RowReduction
