import RowReduction.Binary64.Conversion
import RowReduction.Decimal.Format

/-!
Numbers as texts of one width that align at the point. All entries of a column are positional or all
are in exponent form, and no entry shows more than a given number of places.
-/
namespace RowReduction

/-- How the entries of a column are written. -/
structure NumberColumn where
  /-- The most places behind the point that an entry shows. -/
  places : Nat
  /-- The format that the entries belong to, which decides how many digits tell them apart. -/
  format : BinaryFormat
  /-- The power of ten from which on exponent form is used. -/
  positionalBelow : Nat
  /-- Whether an entry without a minus sign gets a plus sign. -/
  showsPlus : Bool

/-- The parts of a finite entry, with the sign in front of the whole part. -/
structure NumberColumn.Entry where
  whole : String
  fraction : List Char
  exponent : Int

namespace NumberColumn

/-- The digits of the number `n` with zeros in front up to the given width. -/
def digitsPadded (width n : Nat) : List Char :=
  let digits := Nat.toDigits 10 n
  List.replicate (width - digits.length) '0' ++ digits

def dropTrailingZeros (cs : List Char) : List Char := (cs.reverse.dropWhile (· == '0')).reverse

def sign (c : NumberColumn) (negative : Bool) : String :=
  if negative then "-" else if c.showsPlus then "+" else ""

/-- An entry in positional notation: its shortest digits when these have few enough places, and the
correctly rounded ones otherwise. -/
def positional (c : NumberColumn) (negative : Bool) (m : Magnitude) : Entry :=
  if m.isZero then ⟨c.sign negative ++ "0", [], 0⟩
  else
    let shortest := (c.format.neighborhood m).shortest
    if shortest.fractionDigits.length ≤ c.places then
      ⟨c.sign negative ++ String.ofList shortest.integerDigits, shortest.fractionDigits, 0⟩
    else
      let (num, den) := m.ratio
      let coefficient := Decimal.coefficientAt num den c.places
      let fraction := digitsPadded c.places (coefficient % powerOfTen c.places)
      ⟨c.sign negative ++ toString (coefficient / powerOfTen c.places),
        dropTrailingZeros fraction, 0⟩

/-- An entry in exponent form with the digits of a decimal. -/
def scientific (c : NumberColumn) (negative : Bool) (d : Decimal) : Entry :=
  ⟨c.sign negative ++ String.ofList (d.digits.take 1), d.digits.drop 1, d.exponent⟩

/-- An entry in exponent form with as few places as tell it apart. -/
def scientificDraft (c : NumberColumn) (negative : Bool) (m : Magnitude) : Entry :=
  if m.isZero then ⟨c.sign negative ++ "0", [], 0⟩
  else
    let shortest := (c.format.neighborhood m).shortest
    if shortest.digits.length ≤ c.places + 1 then c.scientific negative shortest
    else
      let (num, den) := m.ratio
      c.scientific negative (Decimal.significant num den (c.places + 1)).trim

/-- An entry in exponent form with a given number of places. The digits are those of the exact
value, also where fewer would tell it apart; rounding up to a power of ten makes one digit too
many. -/
def scientificAt (c : NumberColumn) (places : Nat) (negative : Bool) (m : Magnitude) : Entry :=
  if m.isZero then ⟨c.sign negative ++ "0", List.replicate places '0', 0⟩
  else
    let (num, den) := m.ratio
    let d := Decimal.significant num den (places + 1)
    c.scientific negative { d with digits := d.digits.take (places + 1) }

/-- The magnitudes of the finite entries that are not zero. -/
def magnitudes (xs : List Binary64) : List Magnitude :=
  xs.filterMap fun x =>
    match x with
    | .finite _ m => if m.isZero then none else some m
    | _ => none

/-- Exponent form is used for large entries, for small ones, and when they differ too much. -/
def needsExponents (c : NumberColumn) (xs : List Binary64) : Bool :=
  match magnitudes xs with
  | [] => false
  | m :: rest =>
    let largest : Binary64 := .finite false (rest.foldl (fun a b => if a.lt b then b else a) m)
    let least : Binary64 := .finite false (rest.foldl (fun a b => if b.lt a then b else a) m)
    !largest.lt (.ofDecimal false 1 c.positionalBelow) ||
      least.lt (c.format.round (.ofDecimal false 1 (-4))) ||
      (Binary64.ofNat 1000).lt (c.format.round (largest / least))

/-- The common widths of a column of entries. -/
structure Widths where
  whole : Nat
  fraction : Nat
  exponent : Nat

def Widths.ofEntries (entries : List Entry) : Widths where
  whole := entries.foldl (fun w e => max w e.whole.length) 0
  fraction := entries.foldl (fun w e => max w e.fraction.length) 0
  exponent := entries.foldl (fun w e => max w (Nat.toDigits 10 e.exponent.natAbs).length) 2

/-- A finite entry at its full width. -/
def Entry.render (e : Entry) (w : Widths) (exponents : Bool) : String :=
  let fraction := String.ofList e.fraction
  padLeft w.whole e.whole ++ "." ++
    if exponents then fraction ++ "e" ++ exponentText e.exponent w.exponent
    else padRight w.fraction fraction

/-- The text of an entry that is not finite. -/
def nonFiniteText (c : NumberColumn) (x : Binary64) : String :=
  c.sign x.isNegative ++ if x.isNaN then "nan" else "inf"

/-- The width that the entries that are not finite ask for, if there are any. -/
def nonFiniteWidth (c : NumberColumn) (xs : List Binary64) : Nat :=
  if xs.all Binary64.isFinite then 0
  else if c.showsPlus || xs.any (fun x => x.isInfinite && x.isNegative) then 4
  else 3

/-- The text of each entry, all of one width. -/
def cells (c : NumberColumn) (xs : List Binary64) : List String :=
  let exponents := c.needsExponents xs
  let drafts := xs.filterMap fun x =>
    match x with
    | .finite s m => some (if exponents then c.scientificDraft s m else c.positional s m)
    | _ => none
  let w := Widths.ofEntries drafts
  let tail := 1 + w.fraction + (if exponents then 2 + w.exponent else 0)
  let w := { w with whole := max w.whole (c.nonFiniteWidth xs - tail) }
  xs.map fun x =>
    match x with
    | .finite s m =>
      (if exponents then c.scientificAt w.fraction s m else c.positional s m).render w exponents
    | x => padLeft (w.whole + tail) (c.nonFiniteText x)

end NumberColumn

end RowReduction
