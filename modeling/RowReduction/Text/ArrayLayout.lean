/-!
Rows of texts in brackets. The innermost brackets hold the cells, in lines of bounded width; the
brackets around them stand below each other, with blank lines between blocks of more dimensions. Of
a large array the edges are shown only, with a gap between them in each long dimension.
-/
namespace RowReduction

/-- How cells are put together. -/
structure ArrayLayout where
  /-- What stands between two cells. Blanks at its end are dropped at the end of a line. -/
  separator : String
  /-- The width of what stands in front of the opening bracket. -/
  indent : Nat
  /-- The most characters on a line. -/
  lineWidth : Nat

namespace ArrayLayout

/-- The text without the blanks at its end. -/
def trimRight (s : String) : String :=
  String.ofList (s.toList.reverse.dropWhile (· == ' ')).reverse

/-- Adds cells to the current line. A new line, which begins with the hanging indent, is started
where the next cell does not fit, unless the line is empty. -/
def fill (l : ArrayLayout) (hanging : String) (width : Nat) (done line : String) :
    List String → String
  | [] => done ++ line
  | cell :: rest =>
    let wraps := width < line.length + cell.length && hanging.length < line.length
    let done := if wraps then done ++ trimRight line ++ "\n" else done
    let line := (if wraps then hanging else line) ++ cell
    fill l hanging width done (if rest.isEmpty then line else line ++ l.separator) rest

/-- The text without its hanging indent, in brackets. -/
def bracket (hanging text : String) : String :=
  "[" ++ String.ofList (text.toList.drop hanging.length) ++ "]"

/-- The given number of consecutive groups of `size` items. -/
def groups {α : Type} (size : Nat) : (count : Nat) → List α → List (List α)
  | 0, _ => []
  | count + 1, items => items.take size :: groups size count (items.drop size)

/-- An array with more cells than this is large. -/
def mostCells : Nat := 1000

/-- How many items are shown at each end of a long dimension. -/
def edge : Nat := 3

def isLarge (shape : List Nat) : Bool := mostCells < shape.foldr (· * ·) 1

/-- The items of a dimension at both ends, or all of them if these overlap. -/
def edges {α : Type} (items : List α) : List α :=
  if items.length ≤ 2 * edge then items
  else items.take edge ++ items.drop (items.length - edge)

/-- What is shown of the items of an array of the given shape. -/
def atEdges {α : Type} : (shape : List Nat) → List α → List α
  | [], items => items
  | n :: rest, items =>
    (edges (groups (rest.foldr (· * ·) 1) n items)).flatMap (atEdges rest)

/-- The cells that are shown of an array. -/
def visible {α : Type} (shape : List Nat) (items : List α) : List α :=
  if isLarge shape then atEdges shape items else items

/-- What stands for the items that are not shown. -/
def gapText : String := "..."

/-- Puts the gap between the edges of a long dimension, in a large array. -/
def withGap (large : Bool) (n : Nat) (gap : String) (items : List String) : List String :=
  if large && 2 * edge < n then items.take edge ++ [gap] ++ items.drop edge else items

/-- The visible cells of an array of the given shape, inside brackets that begin after a hanging
indent. One column is kept free on each line for every closing bracket. -/
def nested (l : ArrayLayout) (large : Bool) : (shape : List Nat) → (hanging : String) →
    (width : Nat) → (cells : List String) → String
  | [], _, _, cells => cells.headD ""
  | [n], hanging, width, cells =>
    let free := width - max (trimRight l.separator).length 1
    bracket hanging (l.fill hanging free "" hanging (withGap large n gapText cells))
  | n :: m :: rest, hanging, width, cells =>
    let shown (n : Nat) : Nat := if large then min n (2 * edge) else n
    let size := (m :: rest).foldr (shown · * ·) 1
    let blocks := (groups size (shown n) cells).map fun block =>
      hanging ++ l.nested large (m :: rest) (hanging ++ " ") (width - 1) block
    let between := trimRight l.separator ++ "".pushn '\n' (rest.length + 1)
    bracket hanging (between.intercalate (withGap large n (hanging ++ gapText) blocks))

/-- The text of an array with the given shape and visible cells. -/
def render (l : ArrayLayout) (shape : List Nat) (cells : List String) : String :=
  if shape.contains 0 then "[]"
  else l.nested (isLarge shape) shape ("".pushn ' ' (l.indent + 1)) l.lineWidth cells

end ArrayLayout

end RowReduction
