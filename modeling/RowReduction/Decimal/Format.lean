import RowReduction.Binary64.Basic
import RowReduction.Decimal.Shortest

/-!
The texts of binary64 numbers: the shortest text that reads back, texts with a given number of
significant digits, and texts in exponent form with a given number of places.
-/
namespace RowReduction

/-- An exponent with its sign and at least `width` digits. -/
def exponentText (exponent : Int) (width : Nat) : String :=
  let digits := Nat.toDigits 10 exponent.natAbs
  let padding := List.replicate (width - digits.length) '0'
  String.ofList ((if exponent < 0 then '-' else '+') :: padding ++ digits)

/-- Blanks on the left up to the given width. -/
def padLeft (width : Nat) (s : String) : String :=
  "".pushn ' ' (width - s.length) ++ s

/-- Blanks on the right up to the given width. -/
def padRight (width : Nat) (s : String) : String :=
  s.pushn ' ' (width - s.length)

/-- How a number with given digits is laid out. -/
structure NumberStyle where
  /-- The least leading power of ten that is written positionally. -/
  positionalFrom : Int
  /-- The least leading power of ten above it that is not. -/
  positionalBelow : Int
  /-- Whether a positional text without a fraction gets `.0`. -/
  keepsPoint : Bool

namespace NumberStyle

/-- Numbers as a reader types them: positional from `0.0001` to below `10 ^ 16`, always with a
point; otherwise exponent form. -/
def plain : NumberStyle := ⟨-4, 16, true⟩

/-- Like `plain`, without a point after a whole number. -/
def bare : NumberStyle := ⟨-4, 16, false⟩

/-- Positional as long as no digit in front of the point is made up. -/
def general (precision : Nat) : NumberStyle := ⟨-4, precision, false⟩

/-- The text of a decimal. -/
def render (style : NumberStyle) (d : Decimal) : String :=
  if style.positionalFrom ≤ d.exponent && d.exponent < style.positionalBelow then
    match d.fractionDigits with
    | [] => String.ofList d.integerDigits ++ (if style.keepsPoint then ".0" else "")
    | fraction => String.ofList (d.integerDigits ++ '.' :: fraction)
  else
    let mantissa := match d.digits with
      | [] => []
      | [digit] => [digit]
      | digit :: rest => digit :: '.' :: rest
    String.ofList mantissa ++ "e" ++ exponentText d.exponent 2

end NumberStyle

namespace Binary64

/-- The text of a number from the text of a nonzero magnitude and that of zero. -/
def signedText (x : Binary64) (zero : String) (text : Magnitude → String) : String :=
  match x with
  | nan => "nan"
  | infinite s => sign s ++ "inf"
  | finite s m => sign s ++ (if m.isZero then zero else text m)
where
  sign (s : Bool) : String := if s then "-" else ""

/-- The shortest text that reads back as the number. -/
def shortestText (x : Binary64) : String :=
  x.signedText "0.0" fun m => NumberStyle.plain.render m.shortest

/-- The shortest text that reads back, whole numbers without a point. -/
def bareText (x : Binary64) : String :=
  x.signedText "0" fun m => NumberStyle.bare.render m.shortest

/-- At most `precision` significant digits, correctly rounded, without zeros at the end. -/
def generalText (precision : Nat) (x : Binary64) : String :=
  x.signedText "0" fun m =>
    let (num, den) := m.ratio
    (NumberStyle.general precision).render (Decimal.significant num den precision).trim

/-- One digit, `places` more behind the point, and an exponent. -/
def exponentForm (places : Nat) (x : Binary64) : String :=
  x.signedText (mantissa ['0'] ++ "e+00") fun m =>
    let (num, den) := m.ratio
    let d := Decimal.significant num den (places + 1)
    mantissa d.digits ++ "e" ++ exponentText d.exponent 2
where
  mantissa (digits : List Char) : String :=
    let fraction := (digits.drop 1 ++ List.replicate places '0').take places
    String.ofList (digits.take 1 ++ (if places = 0 then [] else '.' :: fraction))

end Binary64

end RowReduction
