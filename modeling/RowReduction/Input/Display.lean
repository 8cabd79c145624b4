import RowReduction.Input.ElementType.Name
import RowReduction.Input.Value
import RowReduction.Moment.Text
import RowReduction.Text.ArrayLayout
import RowReduction.Text.NumberColumn
import RowReduction.Text.Quoted

/-!
Values as they are shown in messages. An array shows its elements in columns, and behind them what
the elements do not show: an empty shape and an element type that is not the usual one.
-/
namespace RowReduction

namespace NumberColumn

/-- The column for the real numbers of an array. -/
def ofFormat (f : RealFormat) (showsPlus : Bool) : NumberColumn where
  places := 8
  format := f.binary
  positionalBelow := min 8 f.decimalDigits
  showsPlus := showsPlus

end NumberColumn

namespace Value

/-- A complex number: the imaginary part alone when the real part is a positive zero. -/
def complexText (re im : Binary64) : String :=
  if re.isZero && !re.isNegative then im.bareText ++ "j"
  else
    "(" ++ re.bareText ++ (if im.isNegative then "" else "+") ++ im.bareText ++ "j)"

/-- The imaginary part of a complex number in a column, with its letter in front of the blanks at
the end. -/
def imaginaryCell (cell : String) : String :=
  let digits := ArrayLayout.trimRight cell
  padRight (cell.length + 1) (digits ++ "j")

/-- Texts of one width, flush right. -/
def flushRight (cells : List String) : List String :=
  let width := cells.foldl (fun w c => max w c.length) 0
  cells.map (padLeft width)

/-- A count of units of time, given the text of one that is known. -/
def countText (known : Int → String) : Value → String
  | int i => if i = Moment.unknown then "'" ++ Moment.unknownText ++ "'" else known i
  | _ => ""

/-- A moment in quotes. -/
def momentText (unit : Option TimeUnit) (count : Int) : String :=
  "'" ++ (match unit with
    | some unit => Moment.text unit count
    | Option.none => toString count) ++ "'"

/-- Raw bytes, all of them as escapes. -/
def rawText : Value → String
  | bytes bs =>
    "b'" ++ String.join (bs.map fun b => String.ofList [backslash, 'x'] ++ hexText 2 b.toNat) ++ "'"
  | _ => ""

/-- The cells of an array, given the texts of its elements as values of their own. -/
def cells (type : ElementType) (shape : List Nat) (elements : List Value)
    (shown : List String) : List String :=
  match type with
  | .boolean => if shape.isEmpty then shown else shown.map (padLeft 5)
  | .integer .. => flushRight shown
  | .moment unit => flushRight (elements.map (countText (momentText unit)))
  | .duration _ => flushRight (elements.map (countText toString))
  | .real f => (NumberColumn.ofFormat f false).cells (elements.map number)
  | .complex f =>
    ((NumberColumn.ofFormat f false).cells (elements.map (·.parts.1))).zipWith (· ++ ·)
      (((NumberColumn.ofFormat f true).cells (elements.map (·.parts.2))).map imaginaryCell)
  | .raw _ => elements.map rawText
  | .object =>
    elements.zipWith (fun v s => match v with
      | list _ => "list(" ++ s ++ ")"
      | _ => s) shown
  | _ => shown

/-- The width of a line in a message. -/
def messageWidth : Nat := 75

/-- The layout of an array in a message. The last column is kept for the closing parenthesis. -/
def arrayLayout : ArrayLayout where
  separator := ", "
  indent := "array(".length
  lineWidth := messageWidth - 1

/-- An array with the given cells. What follows the cells goes on a line of its own if the last line
would become too long. -/
def arrayText (type : StoredType) (shape : List Nat) (cells : List String) : String :=
  let body := "array(" ++ arrayLayout.render shape cells
  let empty := shape.contains 0
  let notes :=
    (if empty && shape != [0] || ArrayLayout.isLarge shape then
      ["shape=" ++ shapeText shape] else []) ++
      (if empty || !type.isEvident then ["dtype=" ++ type.label] else [])
  if notes.isEmpty then body ++ ")"
  else
    let notes := ", ".intercalate notes ++ ")"
    let lastLine := body.toList.reverse.takeWhile (· ≠ '\n')
    let gap := if messageWidth < lastLine.length + notes.length + 2 then "\n      " else " "
    body ++ "," ++ gap ++ notes

mutual

/-- A value as it is shown in a message. -/
def display : Value → String
  | none => "None"
  | bool b => if b then "True" else "False"
  | int i => toString i
  | float x => x.shortestText
  | complex re im => complexText re im
  | text s => quoteText s
  | bytes bs => quoteBytes bs
  | list items => "[" ++ ", ".intercalate (displayAll items) ++ "]"
  | array type shape elements =>
    arrayText type shape
      (cells type.element shape (ArrayLayout.visible shape elements)
        (ArrayLayout.visible shape (displayAll elements)))
  | refusing _ _ => "<object>"

def displayAll : List Value → List String
  | [] => []
  | v :: rest => v.display :: displayAll rest

end

end Value

end RowReduction
