import RowReduction.Binary64.Arithmetic
import RowReduction.Fault

/-!
A timer with named sections. The timer does not look at a clock: every event brings the reading at
which it happens. Sections may overlap and repeat; what is spent in sections of one name adds up, in
the order in which they are closed.
-/
namespace RowReduction

structure Timer where
  startedAt : Option Binary64 := none
  total : Option Binary64 := none
  /-- The sections that are open, oldest first, each with the reading at its opening. -/
  opened : List (String × Binary64) := []
  /-- The time spent in closed sections, in the order in which each name was first closed. -/
  closed : List (String × Binary64) := []

namespace Timer

/-- A timer to which nothing has happened. -/
def fresh : Timer := {}

inductive Event where
  | start
  | stop
  | openSection (name : String)
  /-- Closes the open section at a position, counted from the oldest. -/
  | closeSection (position : Nat)
  | result

inductive Reply where
  | done
  | report (seconds : List (String × Binary64))
deriving DecidableEq

/-- The name under which the overall time is reported. -/
def totalName : String := "total_seconds"

/-- Adds to the entry of a name, which is made at the end when there is none. -/
def addTo (name : String) (elapsed : Binary64) :
    List (String × Binary64) → List (String × Binary64)
  | [] => [(name, .zero + elapsed)]
  | (other, spent) :: rest =>
    if other = name then (other, spent + elapsed) :: rest
    else (other, spent) :: addTo name elapsed rest

/-- The overall time followed by the sections. A section with the name of the overall time takes its
place. -/
def report (total : Binary64) (closed : List (String × Binary64)) : List (String × Binary64) :=
  (totalName, ((closed.find? (·.1 = totalName)).map Prod.snd).getD total) ::
    closed.filter (·.1 ≠ totalName)

/-- What an event does to a timer when the clock shows `now`. -/
def attempt (t : Timer) (now : Binary64) : Event → Except Fault (Timer × Reply)
  | .start => .ok ({ t with startedAt := some now }, .done)
  | .stop =>
    match t.startedAt with
    | none => .error .stoppedBeforeStart
    | some start => .ok ({ t with total := some (now - start) }, .done)
  | .openSection name => .ok ({ t with opened := t.opened ++ [(name, now)] }, .done)
  | .closeSection position =>
    match t.opened[position]? with
    | none => .error .nothingOpen
    | some (name, start) =>
      .ok ({ t with
        opened := t.opened.eraseIdx position
        closed := addTo name (now - start) t.closed }, .done)
  | .result =>
    match t.total with
    | none => .error .resultBeforeStop
    | some total => .ok (t, .report (report total t.closed))

end Timer

end RowReduction
