/-!
Binary64 numbers: one not-a-number, two infinities, and finite numbers as a sign with a magnitude.
A magnitude counts units of `2 ^ (-1074)`, the smallest positive binary64 number, and every
magnitude has exactly one representation, so equality of values of this type is equality of bits
with all not-a-numbers identified. Signed zeros stay apart; `eq` is the comparison that joins them.
-/
namespace RowReduction

/-- The magnitude `significand * 2 ^ exponent * 2 ^ (-1074)`. The significand is below `2 ^ 53`, and
at least `2 ^ 52` unless the exponent is `0`. -/
structure Magnitude where
  significand : Nat
  exponent : Nat
  significand_lt : significand < 0x20000000000000
  exponent_le : exponent ≤ 2045
  normal : exponent = 0 ∨ 0x10000000000000 ≤ significand
deriving DecidableEq

namespace Magnitude

def zero : Magnitude := ⟨0, 0, by decide, by decide, .inl rfl⟩

instance : Inhabited Magnitude := ⟨zero⟩

/-- The magnitude in units of `2 ^ (-1074)`. -/
def units (m : Magnitude) : Nat := m.significand <<< m.exponent

def isZero (m : Magnitude) : Bool := m.significand == 0

/-- The larger exponent wins; between equal exponents the larger significand. -/
def lt (a b : Magnitude) : Bool :=
  a.exponent < b.exponent || (a.exponent == b.exponent && a.significand < b.significand)

/-- The magnitude of `significand * 2 ^ exponent` units when it has a representation with this very
exponent, or with the next one after a carry out of the significand. -/
def pack? (significand exponent : Nat) : Option Magnitude :=
  if h : significand < 0x20000000000000 ∧ exponent ≤ 2045 ∧
      (exponent = 0 ∨ 0x10000000000000 ≤ significand) then
    some ⟨significand, exponent, h.1, h.2.1, h.2.2⟩
  else if h : significand = 0x20000000000000 ∧ exponent + 1 ≤ 2045 then
    some ⟨0x10000000000000, exponent + 1, by decide, h.2, .inr (Nat.le_refl _)⟩
  else none

theorem ext {a b : Magnitude} (hs : a.significand = b.significand)
    (he : a.exponent = b.exponent) : a = b := by
  cases a; cases b; simp_all

theorem isZero_iff (m : Magnitude) : m.isZero = true ↔ m = zero := by
  constructor
  · intro h
    have hs : m.significand = 0 := by simpa [isZero] using h
    have he : m.exponent = 0 := by
      rcases m.normal with he | hn
      · exact he
      · rw [hs] at hn; exact absurd hn (by decide)
    exact ext hs he
  · rintro rfl; rfl

theorem pack?_self (m : Magnitude) : pack? m.significand m.exponent = some m := by
  unfold pack?
  rw [dif_pos ⟨m.significand_lt, m.exponent_le, m.normal⟩]

end Magnitude

/-- A binary64 number. -/
inductive Binary64 where
  | nan
  | infinite (negative : Bool)
  | finite (negative : Bool) (magnitude : Magnitude)
deriving DecidableEq

namespace Binary64

def zero : Binary64 := .finite false .zero

def one : Binary64 := .finite false ⟨0x10000000000000, 1022, by decide, by decide, .inr (by decide)⟩

instance : Inhabited Binary64 := ⟨zero⟩
instance : Zero Binary64 := ⟨zero⟩
instance : One Binary64 := ⟨one⟩

def isNaN : Binary64 → Bool
  | nan => true
  | _ => false

def isInfinite : Binary64 → Bool
  | infinite _ => true
  | _ => false

def isFinite : Binary64 → Bool
  | finite .. => true
  | _ => false

/-- Either zero. -/
def isZero : Binary64 → Bool
  | finite _ m => m.isZero
  | _ => false

/-- The sign bit; not-a-number has none. -/
def isNegative : Binary64 → Bool
  | nan => false
  | infinite s => s
  | finite s _ => s

def neg : Binary64 → Binary64
  | nan => nan
  | infinite s => infinite !s
  | finite s m => finite (!s) m

def abs : Binary64 → Binary64
  | nan => nan
  | infinite _ => infinite false
  | finite _ m => finite false m

instance : Neg Binary64 := ⟨neg⟩

/-- The value of a finite number in units of `2 ^ (-1074)`; `0` stands in for the others. -/
def units : Binary64 → Int
  | finite false m => m.units
  | finite true m => -m.units
  | _ => 0

/-- Strictly below, for magnitudes that carry a sign. -/
def signedLt (s : Bool) (a : Magnitude) (t : Bool) (b : Magnitude) : Bool :=
  match s, t with
  | false, false => a.lt b
  | true, true => b.lt a
  | true, false => !(a.isZero && b.isZero)
  | false, true => false

/-- Strictly below. Not-a-number is below nothing and nothing is below it; the two zeros are
equal. -/
def lt : Binary64 → Binary64 → Bool
  | nan, _ => false
  | _, nan => false
  | infinite s, infinite t => s && !t
  | infinite s, finite .. => s
  | finite .., infinite t => !t
  | finite s a, finite t b => signedLt s a t b

/-- Equal as numbers: the two zeros are equal, not-a-number is equal to nothing. -/
def eq (x y : Binary64) : Bool := !x.isNaN && !y.isNaN && !x.lt y && !y.lt x

/-- Replaces a negative zero by zero and keeps every other number. -/
def dropZeroSign (x : Binary64) : Binary64 := if x.isZero then zero else x

@[simp] theorem neg_neg (x : Binary64) : x.neg.neg = x := by cases x <;> simp [neg]

@[simp] theorem abs_neg (x : Binary64) : x.neg.abs = x.abs := by cases x <;> rfl

@[simp] theorem abs_abs (x : Binary64) : x.abs.abs = x.abs := by cases x <;> rfl

@[simp] theorem isNaN_abs (x : Binary64) : x.abs.isNaN = x.isNaN := by cases x <;> rfl

@[simp] theorem isFinite_abs (x : Binary64) : x.abs.isFinite = x.isFinite := by cases x <;> rfl

@[simp] theorem isFinite_neg (x : Binary64) : x.neg.isFinite = x.isFinite := by cases x <;> rfl

@[simp] theorem lt_nan (x : Binary64) : x.lt nan = false := by cases x <;> rfl

@[simp] theorem nan_lt (x : Binary64) : nan.lt x = false := rfl

end Binary64

end RowReduction
