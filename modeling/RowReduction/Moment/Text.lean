import RowReduction.Decimal.Format
import RowReduction.Moment.Calendar
import RowReduction.Moment.Unit

/-!
Moments of time as texts: a date, with the time of day where the unit is shorter than a day. Moments
are counted in units from the first day of 1970.
-/
namespace RowReduction

/-- A number with zeros in front up to the given width. -/
def zeroPadded (width n : Nat) : String :=
  let digits := Nat.toDigits 10 n
  String.ofList (List.replicate (width - digits.length) '0' ++ digits)

namespace Moment

/-- The text of an unknown moment or span. -/
def unknownText : String := "NaT"

/-- A year with four characters at least. A minus sign is one of them. -/
def yearText (year : Int) : String :=
  if year < 0 then "-" ++ zeroPadded 3 year.natAbs else zeroPadded 4 year.natAbs

def monthText (d : CalendarDate) : String := yearText d.year ++ "-" ++ zeroPadded 2 d.month

def dateText (d : CalendarDate) : String := monthText d ++ "-" ++ zeroPadded 2 d.day

/-- The time of day so many seconds after midnight, with the given number of fields. -/
def clockText (fields seconds : Nat) : String :=
  ":".intercalate
    ([seconds / 3600, seconds / 60 % 60, seconds % 60].map (zeroPadded 2) |>.take fields)

/-- The date on which the moment falls that is `count` units after the first day of 1970. -/
def date (u : TimeUnit) (count : Int) : CalendarDate :=
  let spans := count * u.multiple
  match u.scale with
  | .year => ⟨1970 + spans, 1, 1⟩
  | .month => ⟨1970 + spans.fdiv 12, (spans.fmod 12).toNat + 1, 1⟩
  | scale => .ofDays ((spans * scale.length).fdiv TimeScale.day.length)

/-- The text of the moment that is `count` units after the first day of 1970. -/
def text (u : TimeUnit) (count : Int) : String :=
  let d := date u count
  match u.scale with
  | .year => yearText d.year
  | .month => monthText d
  | scale =>
    let sinceMidnight := (count * u.length).fmod TimeScale.day.length |>.toNat
    let seconds := sinceMidnight / TimeScale.attosPerSecond
    let fraction := sinceMidnight % TimeScale.attosPerSecond / scale.length
    dateText d ++
      (if scale.clockFields = 0 then "" else "T" ++ clockText scale.clockFields seconds) ++
      if scale.places = 0 then "" else "." ++ zeroPadded scale.places fraction

end Moment

end RowReduction
