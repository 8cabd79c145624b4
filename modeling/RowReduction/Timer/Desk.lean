import RowReduction.Timer.Basic

/-!
Several timers under one clock. Entering a timed block starts a timer of its own, which is current
from then on; leaving it stops that timer. Sections can be closed in any order and belong to the
timer that was current when they were opened.
-/
namespace RowReduction

structure TimerDesk where
  clock : Binary64
  timers : List Timer := [.fresh]
  current : Nat := 0
  /-- The timer of each open section, oldest section first. -/
  sections : List Nat := []
  /-- The timers of the timed blocks that have been entered, innermost last. -/
  blocks : List Nat := []

namespace TimerDesk

inductive Event where
  | advance (seconds : Binary64)
  | start
  | stop
  | openSection (name : String)
  /-- Closes the last open section, or the one at a position. The section may be left normally or
  by a failure that goes on through it. -/
  | closeSection (position : Option Nat) (failing : Bool)
  | enterBlock
  /-- Leaves the innermost timed block, if there is one. -/
  | leaveBlock
  | result

inductive Reply where
  | done
  | propagated
  | report (seconds : List (String × Binary64))

/-- Passes an event on to one timer. -/
def pass (d : TimerDesk) (timer : Nat) (event : Timer.Event) :
    Except Fault (TimerDesk × Reply) := do
  let (t, reply) ← (d.timers.getD timer .fresh).attempt d.clock event
  let d := { d with timers := d.timers.set timer t }
  match reply with
  | .done => return (d, .done)
  | .report seconds => return (d, .report seconds)

def attempt (d : TimerDesk) : Event → Except Fault (TimerDesk × Reply)
  | .advance seconds => .ok ({ d with clock := d.clock + seconds }, .done)
  | .start => d.pass d.current .start
  | .stop => d.pass d.current .stop
  | .openSection name => do
    let (d', reply) ← d.pass d.current (.openSection name)
    return ({ d' with sections := d'.sections ++ [d.current] }, reply)
  | .closeSection position failing => do
    let position := position.getD (d.sections.length - 1)
    match d.sections[position]? with
    | none => throw .nothingOpen
    | some timer =>
      let (d', _) ← d.pass timer (.closeSection ((d.sections.take position).count timer))
      return ({ d' with sections := d.sections.eraseIdx position },
        if failing then .propagated else .done)
  | .enterBlock => do
    let timer := d.timers.length
    let d := { d with
      timers := d.timers ++ [Timer.fresh]
      current := timer
      blocks := d.blocks ++ [timer] }
    d.pass timer .start
  | .leaveBlock =>
    match d.blocks.getLast? with
    | none => .ok (d, .done)
    | some timer => { d with blocks := d.blocks.dropLast }.pass timer .stop
  | .result => d.pass d.current .result

/-- Handles an event; one that fails leaves the desk as it was. -/
def handle (d : TimerDesk) (event : Event) : TimerDesk × Except Fault Reply :=
  match d.attempt event with
  | .ok (d', reply) => (d', .ok reply)
  | .error fault => (d, .error fault)

/-- The answers to a sequence of events. -/
def run (d : TimerDesk) : List Event → List (Except Fault Reply)
  | [] => []
  | event :: rest =>
    let (d', reply) := d.handle event
    reply :: run d' rest

end TimerDesk

end RowReduction
