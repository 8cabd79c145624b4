/-!
The units in which moments and spans of time are counted, and the unit in which both of two units
can be counted. Years and months have no fixed length in days, so a span counted in one of them has
no count in a shorter scale than the month. A moment has one.
-/
namespace RowReduction

/-- A span of time that has a name of its own. -/
inductive TimeScale where
  | year
  | month
  | week
  | day
  | hour
  | minute
  | second
  | milli
  | micro
  | nano
  | pico
  | femto
  | atto
deriving DecidableEq

namespace TimeScale

/-- The scales, longest first. -/
def all : List TimeScale :=
  [year, month, week, day, hour, minute, second, milli, micro, nano, pico, femto, atto]

def name : TimeScale → String
  | year => "Y"
  | month => "M"
  | week => "W"
  | day => "D"
  | hour => "h"
  | minute => "m"
  | second => "s"
  | milli => "ms"
  | micro => "us"
  | nano => "ns"
  | pico => "ps"
  | femto => "fs"
  | atto => "as"

def ofName? (name : String) : Option TimeScale := all.find? (·.name = name)

/-- Whether the length in days varies. -/
def isCalendar : TimeScale → Bool
  | year | month => true
  | _ => false

/-- The parts of a second that the shortest scale counts. -/
def attosPerSecond : Nat := 1000000000000000000

/-- The length in months of a year or a month, and in the shortest scale otherwise. -/
def length : TimeScale → Nat
  | year => 12
  | month => 1
  | week => 604800 * attosPerSecond
  | day => 86400 * attosPerSecond
  | hour => 3600 * attosPerSecond
  | minute => 60 * attosPerSecond
  | second => attosPerSecond
  | milli => 1000000000000000
  | micro => 1000000000000
  | nano => 1000000000
  | pico => 1000000
  | femto => 1000
  | atto => 1

/-- Whether the first of two scales is the shorter one. Scales of fixed length are shorter than the
others. -/
def isShorter (s t : TimeScale) : Bool :=
  if s.isCalendar = t.isCalendar then s.length < t.length else t.isCalendar

/-- How many times a scale holds a shorter one. A year or a month counts as the longest scale of
fixed length where it is compared with such a scale. -/
def ratio (s t : TimeScale) : Nat :=
  if s.isCalendar = t.isCalendar then s.length / t.length else week.length / t.length

/-- The bound that ratios have to keep below. -/
def ratioBound : Nat := 0x100000000000000

/-- How many fields of a time of day the scale shows. -/
def clockFields : TimeScale → Nat
  | year | month | week | day => 0
  | hour => 1
  | minute => 2
  | _ => 3

/-- How many places of a second the scale shows. -/
def places : TimeScale → Nat
  | milli => 3
  | micro => 6
  | nano => 9
  | pico => 12
  | femto => 15
  | atto => 18
  | _ => 0

end TimeScale

/-- A multiple of a scale. -/
structure TimeUnit where
  scale : TimeScale
  multiple : Nat := 1
deriving DecidableEq

namespace TimeUnit

def name (u : TimeUnit) : String :=
  (if u.multiple = 1 then "" else toString u.multiple) ++ u.scale.name

/-- The unit that a text names: a scale, with a number in front of it or without. -/
def ofName? (name : String) : Option TimeUnit :=
  let digits := name.toList.takeWhile Char.isDigit
  let scale := TimeScale.ofName? (String.ofList (name.toList.dropWhile Char.isDigit))
  if digits.isEmpty then scale.map fun scale => ⟨scale, 1⟩
  else
    scale.bind fun scale => match (String.ofList digits).toNat? with
      | some (n + 1) => some ⟨scale, n + 1⟩
      | _ => none

/-- The length of a unit, in months or in the shortest scale. -/
def length (u : TimeUnit) : Nat := u.multiple * u.scale.length

/-- The unit in which moments of two units can be counted: the longest one of the shorter scale that
divides both. There is none if the scales lie too far apart. -/
def ofMoments? (u v : TimeUnit) : Option TimeUnit :=
  let (long, short) := if u.scale.isShorter v.scale then (v, u) else (u, v)
  let ratio := long.scale.ratio short.scale
  if TimeScale.ratioBound ≤ ratio then none
  else some ⟨short.scale, (long.multiple * ratio).gcd short.multiple⟩

/-- The unit in which spans of two units can be counted. -/
def ofSpans? (u v : TimeUnit) : Option TimeUnit :=
  if u.scale.isCalendar = v.scale.isCalendar then u.ofMoments? v else none

/-- A count of one unit as a count of another one that divides it. Counts wrap around at 64 bits. -/
def recount (source target : TimeUnit) (count : Int) : Int :=
  (count * source.length / target.length).bmod 0x10000000000000000

end TimeUnit

/-- The count of a moment or a span that is unknown. -/
def Moment.unknown : Int := -0x8000000000000000

end RowReduction
