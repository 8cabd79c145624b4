import RowReduction.Input.Display
import RowReduction.Input.Numeral
import RowReduction.Moment.Clock

/-!
Reading one number from a value. Truth values, integers, numbers and texts that spell numbers are
read, and arrays without dimensions whose element is one of these.
-/
namespace RowReduction

namespace Value

/-- The number that a single value stands for. An integer that rounds beyond the finite range is a
fault of its own. -/
def single : Value → Except Fault Binary64
  | bool b => .ok (if b then .one else .zero)
  | int i => if (Binary64.ofInt i).isFinite then .ok (.ofInt i) else .error .integerTooLarge
  | float x => .ok x
  | text s =>
    match Numeral.ofText? s with
    | some x => .ok x
    | Option.none => .error (.unreadableNumber (quoteText s))
  | bytes bs =>
    match Numeral.ofBytes? bs with
    | some x => .ok x
    | Option.none => .error (.unreadableNumber (quoteBytes bs))
  | array .. => .error .manyNumbers
  | v => .error (.noRealNumber v.kindName)

/-- The integer that a single value stands for, truncated toward zero. -/
def integer : Value → Except ElementProblem Int
  | bool b => .ok (if b then 1 else 0)
  | int i => .ok i
  | float x =>
    if x.isNaN then .error .undefinedInteger
    else if x.isFinite then .ok x.truncate
    else .error .infiniteInteger
  | text s =>
    match Numeral.integerOfText? s with
    | some i => .ok i
    | Option.none => .error (.unreadableInteger (quoteText s))
  | bytes bs =>
    match Numeral.integerOfBytes? bs with
    | some i => .ok i
    | Option.none => .error (.unreadableInteger (quoteBytes bs))
  | v => .error (.noInteger v.kindName)

/-- The number that a count of units of time stands for, if it is not read as something else. -/
def count (clock? : TimeUnit → Int → Option Clock) (unit : Option TimeUnit) (i : Int) :
    Except Fault Binary64 :=
  if i = Moment.unknown then .error (.noRealNumber none.kindName)
  else
    match unit.bind (clock? · i) with
    | some clock => .error (.noRealNumber clock.kindName)
    | Option.none => (int i).single

/-- The number that an element of an array stands for. -/
def element (type : ElementType) (v : Value) : Except Fault Binary64 :=
  match type, v with
  | .moment unit, int i => count Clock.ofMoment? unit i
  | .duration unit, int i => count Clock.ofSpan? unit i
  | _, v => v.single

/-- The number that a value stands for where one real number is asked for. -/
def real : Value → Except Fault Binary64
  | array type [] [v] => v.element type.element
  | v => v.single

end Value

end RowReduction
