import RowReduction.Binary64.Conversion
import RowReduction.Text.Digit

/-!
Numbers written as text. The grammar: an optional sign, then `inf`, `infinity` or `nan` in any case,
or digits with an optional point and an optional exponent; for an integer, digits only; for a
complex number, a real part, an imaginary part with the letter `j` behind it, or both, in
parentheses or without. Blanks around the number are ignored, digits of all scripts are read, and
single underscores may stand between digits.
-/
namespace RowReduction.Numeral

/-- The text without the blanks at both ends. -/
def strip (blank : Char → Bool) (cs : List Char) : List Char :=
  ((cs.dropWhile blank).reverse.dropWhile blank).reverse

/-- A digit of any script as an ASCII digit; other characters stay as they are. -/
def asciiDigit (c : Char) : Char :=
  match digitValue? c with
  | some d => Char.ofNat (48 + d)
  | none => c

/-- The text without underscores, provided each stands between two digits. The first argument says
whether a digit has just been read. -/
def dropUnderscores : Bool → List Char → Option (List Char)
  | _, [] => some []
  | afterDigit, '_' :: rest =>
    match rest with
    | c :: _ => if afterDigit && c.isDigit then dropUnderscores false rest else none
    | [] => none
  | _, c :: rest => (dropUnderscores c.isDigit rest).map (c :: ·)

/-- The value of a string of digits. -/
def natOfDigits (cs : List Char) : Nat :=
  cs.foldl (fun n c => 10 * n + (c.toNat - 48)) 0

/-- Splits off a sign. -/
def splitSign : List Char → Bool × List Char
  | '-' :: rest => (true, rest)
  | '+' :: rest => (false, rest)
  | cs => (false, cs)

/-- The exponent that ends a number, if what is left is one or is empty. -/
def exponent? : List Char → Option Int
  | [] => some 0
  | e :: rest =>
    let (negative, digits) := splitSign rest
    if (e == 'e' || e == 'E') && !digits.isEmpty && digits.all Char.isDigit then
      let n : Int := natOfDigits digits
      some (if negative then -n else n)
    else none

/-- The digits behind a point, if one comes next, and what follows. -/
def splitFraction : List Char → List Char × List Char
  | '.' :: rest => (rest.takeWhile Char.isDigit, rest.dropWhile Char.isDigit)
  | cs => ([], cs)

/-- An unsigned decimal number, with the sign it is to have. -/
def decimal? (negative : Bool) (cs : List Char) : Option Binary64 :=
  let whole := cs.takeWhile Char.isDigit
  let (fraction, rest) := splitFraction (cs.dropWhile Char.isDigit)
  if whole.isEmpty && fraction.isEmpty then none
  else
    (exponent? rest).map fun e =>
      Binary64.ofDecimal negative (natOfDigits (whole ++ fraction)) (e - fraction.length)

/-- A signed number, without blanks and underscores. -/
def signed? (cs : List Char) : Option Binary64 :=
  let (negative, body) := splitSign cs
  match String.ofList (body.map Char.toLower) with
  | "inf" | "infinity" => some (.infinite negative)
  | "nan" => some .nan
  | _ => decimal? negative body

/-- A signed integer, without blanks and underscores. -/
def integer? (cs : List Char) : Option Int :=
  let (negative, digits) := splitSign cs
  if digits.isEmpty || !digits.all Char.isDigit then none
  else
    let n : Int := natOfDigits digits
    some (if negative then -n else n)

/-- The longest number that a text begins with, and what follows. -/
def longest? (cs : List Char) : Option (Binary64 × List Char) :=
  (List.range (cs.length + 1)).reverse.findSome? fun k =>
    (signed? (cs.take k)).map fun x => (x, cs.drop k)

/-- The letter of the imaginary part, if it comes next, and what follows. -/
def imaginaryMark? : List Char → Option (List Char)
  | 'j' :: rest | 'J' :: rest => some rest
  | _ => none

/-- An imaginary part with its sign; without digits it is one. -/
def imaginary? (cs : List Char) : Option (Binary64 × List Char) :=
  let (y, rest) := (longest? cs).getD <| match splitSign cs with
    | (negative, rest) => (if negative then -.one else .one, rest)
  (imaginaryMark? rest).map fun rest => (y, rest)

/-- A complex number, real part first, and what follows. -/
def parts? (cs : List Char) : Option ((Binary64 × Binary64) × List Char) :=
  match longest? cs with
  | none => (imaginary? cs).map fun (y, rest) => ((.zero, y), rest)
  | some (x, rest) =>
    match rest with
    | '+' :: _ | '-' :: _ => (imaginary? rest).map fun (y, rest) => ((x, y), rest)
    | _ =>
      match imaginaryMark? rest with
      | some rest => some ((.zero, x), rest)
      | none => some ((x, .zero), rest)

/-- A complex number, in parentheses or without. -/
def complex? (blank : Char → Bool) (cs : List Char) : Option (Binary64 × Binary64) :=
  match cs with
  | '(' :: rest =>
    match parts? (rest.dropWhile blank) with
    | some (z, rest) => if rest.dropWhile blank = [')'] then some z else none
    | none => none
  | cs =>
    match parts? cs with
    | some (z, []) => some z
    | _ => none

/-- A text without the blanks around it and without underscores, its digits in ASCII. -/
def normalText? (s : String) : Option (List Char) :=
  dropUnderscores false ((strip isBlank s.toList).map asciiDigit)

/-- Bytes without the blanks around them and without underscores; only ASCII spells anything. -/
def normalBytes? (bytes : List UInt8) : Option (List Char) :=
  if bytes.all (· < 128) then
    dropUnderscores false (strip isAsciiBlank (bytes.map fun b => Char.ofNat b.toNat))
  else none

/-- The number that a text spells. -/
def ofText? (s : String) : Option Binary64 := (normalText? s).bind signed?

/-- The number that bytes spell. -/
def ofBytes? (bytes : List UInt8) : Option Binary64 := (normalBytes? bytes).bind signed?

/-- The integer that a text spells. -/
def integerOfText? (s : String) : Option Int := (normalText? s).bind integer?

/-- The integer that bytes spell. -/
def integerOfBytes? (bytes : List UInt8) : Option Int := (normalBytes? bytes).bind integer?

/-- The complex number that a text spells, real part first. -/
def complexOfText? (s : String) : Option (Binary64 × Binary64) :=
  (normalText? s).bind (complex? isBlank)

end RowReduction.Numeral
