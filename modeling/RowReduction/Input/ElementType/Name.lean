import RowReduction.Input.ElementType.Basic

/-!
The names of element types. Types have a plain name and a code of a letter and a size; a type with
swapped bytes goes by its code. Many names are read, and one of them is written.
-/
namespace RowReduction

namespace ElementType

/-- A unit of time in brackets. -/
def unitSuffix : Option TimeUnit → String
  | some unit => "[" ++ unit.name ++ "]"
  | none => ""

/-- The letter and size of a type. -/
def code : ElementType → String
  | boolean => "b1"
  | integer signed size => (if signed then "i" else "u") ++ toString size.bytes
  | real f => "f" ++ toString f.bytes
  | complex f => "c" ++ toString (2 * f.bytes)
  | text w => "U" ++ toString (max 1 w)
  | bytes w => "S" ++ toString (max 1 w)
  | raw w => "V" ++ toString w
  | moment unit => "M8" ++ unitSuffix unit
  | duration unit => "m8" ++ unitSuffix unit
  | object => "O"

/-- The name of a type. Types whose elements have a width are named by their code. -/
def plainName : ElementType → String
  | boolean => "bool"
  | integer signed size => (if signed then "int" else "uint") ++ toString (8 * size.bytes)
  | real f => "float" ++ toString (8 * f.bytes)
  | complex f => "complex" ++ toString (16 * f.bytes)
  | text w => "<" ++ (text w).code
  | bytes w => "|" ++ (bytes w).code
  | raw w => "|" ++ (raw w).code
  | moment unit => "datetime64" ++ unitSuffix unit
  | duration unit => "timedelta64" ++ unitSuffix unit
  | object => "object"

/-- Whether the order of bytes makes a difference. -/
def hasByteOrder : ElementType → Bool
  | integer _ size => size ≠ .w8
  | real _ | complex _ | text _ | moment _ | duration _ => true
  | _ => false

/-- The names that are read, type by type, besides those with a width or a unit. -/
def knownNames : List (ElementType × List String) :=
  [(boolean, ["bool", "bool_", "b1", "?"]),
    (integer true .w8, ["int8", "byte", "i1", "b"]),
    (integer true .w16, ["int16", "short", "i2", "h"]),
    (integer true .w32, ["int32", "intc", "i4", "i"]),
    (integer true .w64, ["int64", "int", "int_", "intp", "long", "longlong", "i8", "l", "q", "p"]),
    (integer false .w8, ["uint8", "ubyte", "u1", "B"]),
    (integer false .w16, ["uint16", "ushort", "u2", "H"]),
    (integer false .w32, ["uint32", "uintc", "u4", "I"]),
    (integer false .w64,
      ["uint64", "uint", "uintp", "ulong", "ulonglong", "u8", "L", "Q", "P"]),
    (real .half, ["float16", "half", "f2", "e"]),
    (real .single, ["float32", "single", "f4", "f"]),
    (real .double, ["float64", "float", "double", "f8", "d"]),
    (real .extended, ["float128", "longdouble", "f16", "g"]),
    (complex .single, ["complex64", "csingle", "c8", "F"]),
    (complex .double, ["complex128", "complex", "cdouble", "c16", "D"]),
    (complex .extended, ["complex256", "clongdouble", "c32", "G"]),
    (text 0, ["str", "str_", "U"]),
    (bytes 0, ["bytes", "bytes_", "S"]),
    (raw 0, ["void", "V"]),
    (moment none, ["datetime64", "M8", "M"]),
    (duration none, ["timedelta64", "m8", "m"]),
    (object, ["object", "object_", "O"])]

/-- The type with a width that a letter and digits name. -/
def ofWidthCode? : List Char → Option ElementType
  | letter :: digits =>
    (String.ofList digits).toNat?.bind fun width =>
      match letter with
      | 'U' => some (text width)
      | 'S' => some (bytes width)
      | 'V' => some (raw width)
      | _ => none
  | [] => none

/-- The type of moments or durations that a name with a unit in brackets names. -/
def ofUnitName? (name : String) : Option ElementType :=
  match name.splitOn "[" with
  | [base, unit] =>
    (TimeUnit.ofName? (String.ofList (unit.toList.takeWhile (· ≠ ']')))).bind fun unit =>
      if base = "datetime64" || base = "M8" then some (moment unit)
      else if base = "timedelta64" || base = "m8" then some (duration unit)
      else none
  | _ => none

/-- The type that a name without a byte order names. A text or bytes type of width zero is as wide
as its elements need. -/
def ofName? (name : String) : Option ElementType :=
  match knownNames.find? fun (_, names) => names.contains name with
  | some (type, _) => some type
  | none => (ofWidthCode? name.toList).or (ofUnitName? name)

end ElementType

namespace StoredType

/-- The name of a type, which is its code when its bytes are swapped. -/
def name (t : StoredType) : String :=
  if t.swapped then ">" ++ t.element.code else t.element.plainName

/-- The type that a name names. The name can begin with a byte order. -/
def ofName? (name : String) : Option StoredType :=
  match name.toList with
  | '>' :: rest =>
    (ElementType.ofName? (String.ofList rest)).map fun type => ⟨type, type.hasByteOrder⟩
  | '<' :: rest | '=' :: rest | '|' :: rest =>
    (ElementType.ofName? (String.ofList rest)).map fun type => ⟨type, false⟩
  | _ => (ElementType.ofName? name).map fun type => ⟨type, false⟩

/-- Whether elements of the type show it by themselves. -/
def isEvident (t : StoredType) : Bool :=
  !t.swapped && match t.element with
    | .boolean | .integer true .w64 | .real .double | .complex .double => true
    | _ => false

/-- The name beside an array: in quotes, unless it is made of letters and digits only. -/
def label (t : StoredType) : String :=
  if t.name.toList.all Char.isAlphanum then t.name else "'" ++ t.name ++ "'"

end StoredType

end RowReduction
