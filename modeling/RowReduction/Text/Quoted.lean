import RowReduction.Text.Printable

/-!
Quoted texts and bytes. A text stands in single quotes, or in double quotes if it holds a single
quote and no double one; the quote, the backslash and all characters without a visible form are
escaped.
-/
namespace RowReduction

/-- A number in hexadecimal with at least `width` digits. -/
def hexText (width n : Nat) : String :=
  let digits := Nat.toDigits 16 n
  String.ofList (List.replicate (width - digits.length) '0' ++ digits)

def singleQuote : Char := Char.ofNat 39

def doubleQuote : Char := Char.ofNat 34

def backslash : Char := Char.ofNat 92

/-- The quote that a text needs, given which quotes occur in it. -/
def chooseQuote (hasSingle hasDouble : Bool) : Char :=
  if hasSingle && !hasDouble then doubleQuote else singleQuote

/-- The escapes that do not depend on the alphabet. -/
def escapeCommon? (quote c : Char) : Option String :=
  if c = quote || c = backslash then some (String.ofList [backslash, c])
  else if c = '\n' then some "\\n"
  else if c = '\r' then some "\\r"
  else if c = '\t' then some "\\t"
  else none

/-- A character by its number. -/
def characterCode (c : Char) : String :=
  if c.toNat < 0x100 then "\\x" ++ hexText 2 c.toNat
  else if c.toNat < 0x10000 then "\\u" ++ hexText 4 c.toNat
  else "\\U" ++ hexText 8 c.toNat

/-- One character of a quoted text. -/
def escapeChar (quote c : Char) : String :=
  match escapeCommon? quote c with
  | some s => s
  | none => if isPrintable c then c.toString else characterCode c

/-- A text in quotes. -/
def quoteText (s : String) : String :=
  let chars := s.toList
  let quote := chooseQuote (chars.contains singleQuote) (chars.contains doubleQuote)
  quote.toString ++ String.join (chars.map (escapeChar quote)) ++ quote.toString

/-- One byte of quoted bytes; only visible ASCII stands for itself. -/
def escapeByte (quote : Char) (byte : UInt8) : String :=
  let c := Char.ofNat byte.toNat
  match escapeCommon? quote c with
  | some s => s
  | none =>
    if 32 ≤ byte.toNat && byte.toNat < 127 then c.toString else "\\x" ++ hexText 2 byte.toNat

/-- Bytes in quotes, marked as bytes. -/
def quoteBytes (bytes : List UInt8) : String :=
  let quote := chooseQuote (bytes.contains 39) (bytes.contains 34)
  "b" ++ quote.toString ++ String.join (bytes.map (escapeByte quote)) ++ quote.toString

end RowReduction
