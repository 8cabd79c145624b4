import RowReduction.Fault.Element
import RowReduction.Moment.Calendar
import RowReduction.Moment.Unit
import RowReduction.Text.Digit

/-!
Reading a moment from a text. A caller may hand in an array of moments, and is then told the type that
it has; the type counts the unit in which the texts show their moments, so the texts have to be read
to make such an array. The grammar: a year of any number of digits, then a month, a day, an hour, a
minute and a second of two digits each, as far as the text goes, with places behind the second; behind
a time of day an offset from universal time can stand. A reader fails at the first character that does
not fit, and names the place.
-/
namespace RowReduction

/-- What a text says of a moment, and the shortest scale in which it says something. -/
structure MomentText where
  date : CalendarDate
  /-- Seconds after midnight. -/
  seconds : Int := 0
  attos : Nat := 0
  scale : TimeScale

namespace MomentText

/-- Whether the text stands for an unknown moment. -/
def isUnknown (cs : List Char) : Bool :=
  cs.isEmpty || cs.map Char.toLower = ['n', 'a', 't']

/-- The complaint about what is left of a text. -/
def stuck (whole rest : List Char) : ElementProblem :=
  .unreadableMoment (String.ofList whole) (whole.length - rest.length)

/-- Reads a field of two digits, which has to be within bounds. -/
def field (whole : List Char) (name : String) (least most : Nat) :
    List Char → Except ElementProblem (Nat × List Char)
  | a :: b :: rest =>
    if a.isDigit && b.isDigit then
      let n := 10 * (a.toNat - 48) + (b.toNat - 48)
      if least ≤ n ∧ n ≤ most then .ok (n, rest)
      else .error (.momentFieldOutOfRange name (String.ofList whole))
    else .error (stuck whole (a :: b :: rest))
  | rest => .error (stuck whole rest)

/-- Reads a separator, which must not end the text. The result is none if no separator comes
next. -/
def separator? (whole : List Char) (isSeparator : Char → Bool) :
    List Char → Except ElementProblem (Option (List Char))
  | [] => .ok none
  | c :: rest =>
    if !isSeparator c then .ok none
    else if rest.isEmpty then .error (stuck whole rest)
    else .ok (some rest)

/-- The scale of a second with so many places. -/
def scaleOfPlaces (n : Nat) : TimeScale :=
  if n ≤ 3 then .milli
  else if n ≤ 6 then .micro
  else if n ≤ 9 then .nano
  else if n ≤ 12 then .pico
  else if n ≤ 15 then .femto
  else .atto

/-- Reads the minutes of an offset, which can be missing. -/
def offsetMinutes (whole rest : List Char) : Except ElementProblem (Nat × List Char) :=
  match rest with
  | [] => .ok (0, [])
  | ':' :: rest | rest => field whole "Timezone minutes offset" 0 59 rest

/-- Reads the offset from universal time, in minutes, that ends a text. -/
def offset (whole rest : List Char) : Except ElementProblem Int := do
  let (minutes, rest) ← match rest with
    | 'Z' :: rest => pure (0, rest)
    | sign :: rest =>
      if sign = '+' || sign = '-' then do
        let (hours, rest) ← field whole "Timezone hours offset" 0 23 rest
        let (minutes, rest) ← offsetMinutes whole rest
        let total : Int := 60 * hours + minutes
        pure (if sign = '-' then -total else total, rest)
      else pure (0, sign :: rest)
    | [] => pure (0, [])
  let rest := rest.dropWhile isAsciiBlank
  if rest.isEmpty then return minutes else throw (stuck whole rest)

/-- Reads a time of day and all that follows it. -/
def clock (whole : List Char) (date : CalendarDate) (rest : List Char) :
    Except ElementProblem MomentText := do
  let finish (seconds attos : Nat) (scale : TimeScale) (rest : List Char) :
      Except ElementProblem MomentText := do
    let minutes ← offset whole rest
    return { date, seconds := seconds - 60 * minutes, attos, scale }
  let (hours, rest) ← field whole "Hours" 0 23 rest
  match ← separator? whole (· = ':') rest with
  | none => finish (3600 * hours) 0 .hour rest
  | some rest =>
    let (minutes, rest) ← field whole "Minutes" 0 59 rest
    let whole60 := 3600 * hours + 60 * minutes
    match ← separator? whole (· = ':') rest with
    | none => finish whole60 0 .minute rest
    | some rest =>
      let (seconds, rest) ← field whole "Seconds" 0 59 rest
      match rest with
      | '.' :: rest =>
        let digits := (rest.takeWhile Char.isDigit).take 18
        let attos := (digits ++ List.replicate (18 - digits.length) '0').foldl
          (fun n c => 10 * n + (c.toNat - 48)) 0
        finish (whole60 + seconds) attos (scaleOfPlaces digits.length) (rest.drop digits.length)
      | rest => finish (whole60 + seconds) 0 .second rest

/-- Reads a text. A minus sign in front of the year counts only where the text begins with it. -/
def read (whole : List Char) : Except ElementProblem MomentText := do
  let rest := whole.dropWhile isAsciiBlank
  let rest := match rest with
    | '-' :: rest | '+' :: rest | rest => rest
  if rest.isEmpty then throw (stuck whole rest)
  let digits := rest.takeWhile Char.isDigit
  let size : Int := digits.foldl (fun n c => 10 * n + (c.toNat - 48)) 0
  let year := if whole.head? = some '-' then -size else size
  let rest := rest.drop digits.length
  if rest.isEmpty then return { date := ⟨year, 1, 1⟩, scale := .year }
  match ← separator? whole (· = '-') rest with
  | none => throw (stuck whole rest)
  | some rest =>
    let (month, rest) ← field whole "Month" 1 12 rest
    if rest.isEmpty then return { date := ⟨year, month, 1⟩, scale := .month }
    match ← separator? whole (· = '-') rest with
    | none => throw (stuck whole rest)
    | some rest =>
      let (day, rest) ← field whole "Day" 1 (CalendarDate.daysInMonth year month) rest
      let date : CalendarDate := ⟨year, month, day⟩
      match rest with
      | [] => return { date, scale := .day }
      | c :: after =>
        if c = 'T' || c = ' ' then clock whole date after else throw (stuck whole rest)

/-- The moment as a count of units from the first day of 1970. What the unit cannot show is dropped,
and counts wrap around at 64 bits. -/
def count (m : MomentText) (u : TimeUnit) : Int :=
  let seconds := 86400 * m.date.toDays + m.seconds
  let date := CalendarDate.ofDays (seconds.fdiv 86400)
  let spans := match u.scale with
    | .year => date.year - 1970
    | .month => date.months - 12 * 1970
    | scale => (seconds * TimeScale.attosPerSecond + m.attos).fdiv scale.length
  (spans.fdiv u.multiple).bmod 0x10000000000000000

end MomentText

end RowReduction
