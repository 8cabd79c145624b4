import RowReduction.Moment.Text

/-!
The range of dates, of times of day and of spans that a clock shows. Counts of units within it are
dates or spans; counts beyond it are bare numbers.
-/
namespace RowReduction

/-- What counts of units of time are read as, where they are not read as numbers. -/
inductive Clock where
  | date
  | dateTime
  | span

namespace Clock

def kindName : Clock → String
  | date => "datetime.date"
  | dateTime => "datetime.datetime"
  | span => "datetime.timedelta"

/-- Whether a scale is too short for the clock, which counts down to millionths of a second. -/
def isTooShort (scale : TimeScale) : Bool :=
  !scale.isCalendar && scale.length < TimeScale.micro.length

/-- The clock shows the moments of the years from 1 to 9999. -/
def ofMoment? (u : TimeUnit) (count : Int) : Option Clock :=
  let year := (Moment.date u count).year
  if isTooShort u.scale || year < 1 || 9999 < year then none
  else if u.scale.clockFields = 0 then some date
  else some dateTime

/-- The most days of a span, forward and backward. -/
def mostDays : Int := 999999999

/-- The clock counts spans of fixed length and of a bounded number of days. -/
def ofSpan? (u : TimeUnit) (count : Int) : Option Clock :=
  let days := (count * u.length).fdiv TimeScale.day.length
  if u.scale.isCalendar || isTooShort u.scale || days < -mostDays || mostDays < days then none
  else some span

end Clock

end RowReduction
