import RowReduction.Binary64.Rounding

/-!
Addition, subtraction, multiplication and division of binary64 numbers. Each is its exact result
rounded once; the cases without an exact result follow the rules for zeros and infinities.
-/
namespace RowReduction.Binary64

/-- The exact sum of two signed magnitudes as a multiple of `2 ^ min` units, where `min` is the
smaller of the two exponents. -/
def alignedSum (s : Bool) (a : Magnitude) (t : Bool) (b : Magnitude) : Int :=
  let least := min a.exponent b.exponent
  let x : Int := a.significand <<< (a.exponent - least)
  let y : Int := b.significand <<< (b.exponent - least)
  (if s then -x else x) + (if t then -y else y)

/-- The sum of two finite numbers. An exact zero is positive unless both terms are negative. -/
def addFinite (s : Bool) (a : Magnitude) (t : Bool) (b : Magnitude) : Binary64 :=
  let sum := alignedSum s a t b
  if sum = 0 then .finite (s && t) .zero
  else round (decide (sum < 0)) sum.natAbs 1 (min a.exponent b.exponent : Nat)

def add : Binary64 → Binary64 → Binary64
  | nan, _ => nan
  | _, nan => nan
  | infinite s, infinite t => if s = t then infinite s else nan
  | infinite s, finite .. => infinite s
  | finite .., infinite t => infinite t
  | finite s a, finite t b => addFinite s a t b

/-- Subtraction is addition of the negated number. -/
def sub (x y : Binary64) : Binary64 := x.add y.neg

/-- Zero times infinity is not a number. -/
def mul : Binary64 → Binary64 → Binary64
  | nan, _ => nan
  | _, nan => nan
  | infinite s, infinite t => infinite (s != t)
  | infinite s, finite t b => if b.isZero then nan else infinite (s != t)
  | finite s a, infinite t => if a.isZero then nan else infinite (s != t)
  | finite s a, finite t b =>
    round (s != t) (a.significand * b.significand) 1 ((a.exponent + b.exponent : Nat) - 1074)

/-- A nonzero number over zero is infinite; zero over zero and infinity over infinity are not
numbers. -/
def div : Binary64 → Binary64 → Binary64
  | nan, _ => nan
  | _, nan => nan
  | infinite _, infinite _ => nan
  | infinite s, finite t _ => infinite (s != t)
  | finite s _, infinite t => finite (s != t) .zero
  | finite s a, finite t b =>
    if b.isZero then if a.isZero then nan else infinite (s != t)
    else round (s != t) a.significand b.significand ((a.exponent : Int) - b.exponent + 1074)

instance : Add Binary64 := ⟨add⟩
instance : Sub Binary64 := ⟨sub⟩
instance : Mul Binary64 := ⟨mul⟩
instance : Div Binary64 := ⟨div⟩

end RowReduction.Binary64
