/-!
Decimal digits of all scripts, and blanks. Each script that has decimal digits has ten of them in a
row, so a table of the zeros is enough.
-/
namespace RowReduction

/-- The code points of the digit zero in each script. -/
def digitZeros : List Nat :=
  [
    48, 1632, 1776, 1984, 2406, 2534, 2662, 2790, 2918, 3046, 3174, 3302, 3430, 3558, 3664,
    3792, 3872, 4160, 4240, 6112, 6160, 6470, 6608, 6784, 6800, 6992, 7088, 7232, 7248, 42528,
    43216, 43264, 43472, 43504, 43600, 44016, 65296, 66720, 68912, 69734, 69872, 69942, 70096,
    70384, 70736, 70864, 71248, 71360, 71472, 71904, 72016, 72784, 73040, 73120, 92768, 92864,
    93008, 120782, 120792, 120802, 120812, 120822, 123200, 123632, 125264, 130032
  ]

/-- The value of a decimal digit of any script. -/
def digitValue? (c : Char) : Option Nat :=
  (digitZeros.find? fun first => first ≤ c.toNat && c.toNat < first + 10).map fun first =>
    c.toNat - first

/-- Blanks among the ASCII characters: space, tab, line feed, vertical tab, form feed, carriage
return. -/
def isAsciiBlank (c : Char) : Bool := c.toNat == 32 || (9 ≤ c.toNat && c.toNat ≤ 13)

/-- Blanks beyond ASCII, as inclusive ranges of code points. -/
def wideBlankRanges : List (Nat × Nat) :=
  [(133, 133), (160, 160), (5760, 5760), (8192, 8202), (8232, 8233), (8239, 8239), (8287, 8287),
    (12288, 12288)]

/-- Whether a character counts as blank around a number. -/
def isBlank (c : Char) : Bool :=
  isAsciiBlank c ||
    wideBlankRanges.any fun range => range.1 ≤ c.toNat && c.toNat ≤ range.2

end RowReduction
