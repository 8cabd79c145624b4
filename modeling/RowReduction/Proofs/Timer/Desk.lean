import Mathlib.Logic.Function.Basic
import RowReduction.Proofs.Timer.History
import RowReduction.Timer.Desk

/-!
Timers on a desk. Every event is at most one call of one timer, made at the reading of the clock, and
each timer is what the calls of its own history have made of it: the timers of timed blocks as well,
and whether their sections are left normally or by a failure.
-/
namespace RowReduction

namespace TimerDesk

/-- The call that an event makes, with the timer it is made to. -/
def call? (d : TimerDesk) : Event → Option (Nat × Timer.Call)
  | .advance _ => none
  | .start => some (d.current, ⟨d.clock, .start⟩)
  | .stop => some (d.current, ⟨d.clock, .stop⟩)
  | .openSection name => some (d.current, ⟨d.clock, .openSection name⟩)
  | .closeSection position _ =>
    let position := position.getD (d.sections.length - 1)
    d.sections[position]?.map fun timer =>
      (timer, ⟨d.clock, .closeSection ((d.sections.take position).count timer)⟩)
  | .enterBlock => some (d.timers.length, ⟨d.clock, .start⟩)
  | .leaveBlock => d.blocks.getLast?.map fun timer => (timer, ⟨d.clock, .stop⟩)
  | .result => some (d.current, ⟨d.clock, .result⟩)

/-- The histories of all timers after one more call. -/
def record (histories : Nat → List Timer.Call) : Option (Nat × Timer.Call) → Nat → List Timer.Call
  | none => histories
  | some (timer, call) => Function.update histories timer (call :: histories timer)

/-- Every timer of a desk is what the calls of its history have made of it, and those that are still
to be made have no history. -/
structure Remembers (d : TimerDesk) (histories : Nat → List Timer.Call) : Prop where
  timers : ∀ k, d.timers.getD k .fresh = Timer.after (histories k)
  unmade : ∀ k, d.timers.length ≤ k → histories k = []
  current : d.current < d.timers.length
  sections : ∀ k ∈ d.sections, k < d.timers.length
  blocks : ∀ k ∈ d.blocks, k < d.timers.length

/-- The desk with one more timed block, whose timer is still to be started. -/
def withBlock (d : TimerDesk) : TimerDesk :=
  { d with
    timers := d.timers ++ [Timer.fresh]
    current := d.timers.length
    blocks := d.blocks ++ [d.timers.length] }

/-- A report of a timer is passed on. -/
def Reply.ofTimer : Timer.Reply → Reply
  | .done => .done
  | .report seconds => .report seconds

theorem remembers_new (clock : Binary64) : Remembers ⟨clock, [.fresh], 0, [], []⟩ fun _ => [] where
  timers k := by cases k <;> rfl
  unmade _ _ := rfl
  current := Nat.one_pos
  sections _ hk := nomatch hk
  blocks _ hk := nomatch hk

theorem handle_of_ok {d d' : TimerDesk} {event : Event} {reply : Reply}
    (h : d.attempt event = .ok (d', reply)) : d.handle event = (d', .ok reply) := by
  rw [handle, h]

theorem handle_of_error {d : TimerDesk} {event : Event} {fault : Fault}
    (h : d.attempt event = .error fault) : d.handle event = (d, .error fault) := by
  rw [handle, h]

namespace Remembers

variable {d : TimerDesk} {histories : Nat → List Timer.Call}

/-- What passing an event on to a timer does to the desk, in terms of its history. -/
theorem pass_eq (hd : Remembers d histories) (timer : Nat) (event : Timer.Event) :
    d.pass timer event =
      (Timer.answer (histories timer) ⟨d.clock, event⟩).map fun reply =>
        ({ d with
          timers := d.timers.set timer (Timer.after (⟨d.clock, event⟩ :: histories timer)) },
          Reply.ofTimer reply) := by
  rw [pass, hd.timers]
  simp only [Timer.answer, Timer.after, Timer.handle]
  cases (Timer.after (histories timer)).attempt d.clock event with
  | error fault => rfl
  | ok next =>
      obtain ⟨t, reply⟩ := next
      cases reply with
      | done => rfl
      | report seconds => rfl

/-- A call that has been answered is part of the history of its timer. -/
theorem set (hd : Remembers d histories) {timer : Nat} (htimer : timer < d.timers.length)
    (call : Timer.Call) :
    Remembers
      { d with timers := d.timers.set timer (Timer.after (call :: histories timer)) }
      (record histories (some (timer, call))) := by
  have hlength : (d.timers.set timer (Timer.after (call :: histories timer))).length =
      d.timers.length := List.length_set
  refine ⟨fun k => ?_, fun k hk => ?_, ?_, fun k hk => ?_, fun k hk => ?_⟩
  · rw [record]
    by_cases h : timer = k
    · subst h
      rw [Function.update_self, List.getD_eq_getElem?_getD, List.getElem?_set_self htimer]
      rfl
    · rw [Function.update_of_ne (Ne.symm h), List.getD_eq_getElem?_getD, List.getElem?_set_ne h,
        ← List.getD_eq_getElem?_getD]
      exact hd.timers k
  · rw [hlength] at hk
    rw [record, Function.update_of_ne (by omega)]
    exact hd.unmade k hk
  · rw [hlength]
    exact hd.current
  · rw [hlength]
    exact hd.sections k hk
  · rw [hlength]
    exact hd.blocks k hk

/-- A call that has failed may as well be part of the history. -/
theorem of_failed (hd : Remembers d histories) {timer : Nat} (htimer : timer < d.timers.length)
    {call : Timer.Call} {fault : Fault} (h : Timer.answer (histories timer) call = .error fault) :
    Remembers d (record histories (some (timer, call))) := by
  refine ⟨fun k => ?_, fun k hk => ?_, hd.current, hd.sections, hd.blocks⟩
  · rw [hd.timers, record]
    by_cases hk : k = timer
    · subst hk
      rw [Function.update_self, Timer.after_of_error h]
    · rw [Function.update_of_ne hk]
  · rw [record, Function.update_of_ne (by omega)]
    exact hd.unmade k hk

/-- An event that is passed on as it is. -/
theorem handle_of_pass (hd : Remembers d histories) {event : Event} {timer : Nat}
    {call : Timer.Event} (htimer : timer < d.timers.length)
    (h : d.attempt event = d.pass timer call) :
    Remembers (d.handle event).1 (record histories (some (timer, ⟨d.clock, call⟩))) ∧
      (d.handle event).2 =
        (Timer.answer (histories timer) ⟨d.clock, call⟩).map Reply.ofTimer := by
  rw [hd.pass_eq] at h
  cases hanswer : Timer.answer (histories timer) ⟨d.clock, call⟩ with
  | error fault =>
      rw [hanswer] at h
      rw [handle_of_error h]
      exact ⟨hd.of_failed htimer hanswer, rfl⟩
  | ok reply =>
      rw [hanswer] at h
      rw [handle_of_ok h]
      exact ⟨hd.set htimer _, rfl⟩

theorem handle_openSection (hd : Remembers d histories) (name : String) :
    Remembers (d.handle (.openSection name)).1
      (record histories (some (d.current, ⟨d.clock, .openSection name⟩))) := by
  have hattempt : d.attempt (.openSection name) =
      (d.pass d.current (.openSection name)).map fun next =>
        ({ next.1 with sections := next.1.sections ++ [d.current] }, next.2) := rfl
  rw [hd.pass_eq] at hattempt
  rw [handle_of_ok hattempt]
  have hset := hd.set hd.current ⟨d.clock, .openSection name⟩
  refine ⟨hset.timers, hset.unmade, hset.current, fun k hk => ?_, hset.blocks⟩
  rcases List.mem_append.mp hk with hbefore | hnew
  · exact hset.sections k hbefore
  · rw [List.mem_singleton.mp hnew]
    exact hset.current

theorem handle_closeSection (hd : Remembers d histories) (position : Option Nat)
    (failing : Bool) :
    Remembers (d.handle (.closeSection position failing)).1
      (record histories (d.call? (.closeSection position failing))) := by
  cases htimer : d.sections[position.getD (d.sections.length - 1)]? with
  | none =>
      have hattempt : d.attempt (.closeSection position failing) = .error .nothingOpen := by
        simp only [attempt, htimer]
        rfl
      rw [handle_of_error hattempt, call?]
      simp only [htimer]
      exact hd
  | some timer =>
      have hlt := hd.sections timer (List.mem_of_getElem? htimer)
      generalize hposition : position.getD (d.sections.length - 1) = place at htimer
      have hattempt : d.attempt (.closeSection position failing) =
          (d.pass timer (.closeSection ((d.sections.take place).count timer))).map fun next =>
            ({ next.1 with sections := d.sections.eraseIdx place },
              if failing then .propagated else .done) := by
        simp only [attempt, hposition, htimer]
        rfl
      rw [call?]
      simp only [hposition, htimer, Option.map_some]
      rw [hd.pass_eq] at hattempt
      cases hanswer : Timer.answer (histories timer)
          ⟨d.clock, .closeSection ((d.sections.take place).count timer)⟩ with
      | error fault =>
          rw [hanswer] at hattempt
          rw [handle_of_error hattempt]
          exact hd.of_failed hlt hanswer
      | ok reply =>
          rw [hanswer] at hattempt
          rw [handle_of_ok hattempt]
          have hset := hd.set hlt
            ⟨d.clock, .closeSection ((d.sections.take place).count timer)⟩
          exact ⟨hset.timers, hset.unmade, hset.current,
            fun k hk => hset.sections k (List.mem_of_mem_eraseIdx hk), hset.blocks⟩

/-- A timed block brings a timer without a history. -/
theorem withBlock (hd : Remembers d histories) : Remembers d.withBlock histories := by
  have hlength : d.withBlock.timers.length = d.timers.length + 1 := List.length_append
  refine ⟨fun k => ?_, fun k hk => ?_, ?_, fun k hk => ?_, fun k hk => ?_⟩
  · show (d.timers ++ [Timer.fresh]).getD k .fresh = _
    rw [← hd.timers, List.getD_eq_getElem?_getD, List.getD_eq_getElem?_getD, List.getElem?_append]
    split
    · rfl
    · rename_i hk
      rw [List.getElem?_eq_none (Nat.not_lt.mp hk)]
      cases k - d.timers.length <;> rfl
  · rw [hlength] at hk
    exact hd.unmade k (by omega)
  · rw [hlength]
    exact Nat.lt_succ_self _
  · rw [hlength]
    exact Nat.lt_succ_of_lt (hd.sections k hk)
  · rw [hlength]
    rcases List.mem_append.mp hk with hbefore | hnew
    · exact Nat.lt_succ_of_lt (hd.blocks k hbefore)
    · rw [List.mem_singleton.mp hnew]
      exact Nat.lt_succ_self _

theorem handle_enterBlock (hd : Remembers d histories) :
    Remembers (d.handle .enterBlock).1
      (record histories (some (d.timers.length, ⟨d.clock, .start⟩))) := by
  have hattempt : d.attempt .enterBlock = d.withBlock.pass d.timers.length .start := rfl
  rw [hd.withBlock.pass_eq] at hattempt
  rw [handle_of_ok hattempt]
  exact hd.withBlock.set (by simp [TimerDesk.withBlock]) _

theorem handle_leaveBlock (hd : Remembers d histories) :
    Remembers (d.handle .leaveBlock).1 (record histories (d.call? .leaveBlock)) := by
  rw [call?]
  cases htimer : d.blocks.getLast? with
  | none =>
      have hattempt : d.attempt .leaveBlock = .ok (d, .done) := by
        simp only [attempt, htimer]
      rw [handle_of_ok hattempt]
      exact hd
  | some timer =>
      have hlt := hd.blocks timer (List.mem_of_getLast? htimer)
      have hrest : Remembers { d with blocks := d.blocks.dropLast } histories :=
        ⟨hd.timers, hd.unmade, hd.current, hd.sections,
          fun k hk => hd.blocks k (List.dropLast_subset _ hk)⟩
      have hattempt : d.attempt .leaveBlock =
          ({ d with blocks := d.blocks.dropLast }).pass timer .stop := by
        simp only [attempt, htimer]
      rw [hrest.pass_eq] at hattempt
      rw [Option.map_some]
      cases hanswer : Timer.answer (histories timer) ⟨d.clock, .stop⟩ with
      | error fault =>
          rw [hanswer] at hattempt
          rw [handle_of_error hattempt]
          exact hd.of_failed hlt hanswer
      | ok reply =>
          rw [hanswer] at hattempt
          rw [handle_of_ok hattempt]
          exact hrest.set hlt _

/-- **Every event of a desk is at most one call of one timer**, and the desk keeps what the calls
have made of each timer. -/
theorem handle (hd : Remembers d histories) (event : Event) :
    Remembers (d.handle event).1 (record histories (d.call? event)) := by
  cases event with
  | advance seconds => exact ⟨hd.timers, hd.unmade, hd.current, hd.sections, hd.blocks⟩
  | start => exact (hd.handle_of_pass hd.current rfl).1
  | stop => exact (hd.handle_of_pass hd.current rfl).1
  | openSection name => exact hd.handle_openSection name
  | closeSection position failing => exact hd.handle_closeSection position failing
  | enterBlock => exact hd.handle_enterBlock
  | leaveBlock => exact hd.handle_leaveBlock
  | result => exact (hd.handle_of_pass hd.current rfl).1

end Remembers

/-- Leaving a section by a failure makes the same of the desk as leaving it normally. -/
theorem handle_closeSection_failing (d : TimerDesk) (position : Option Nat) :
    (d.handle (.closeSection position true)).1 = (d.handle (.closeSection position false)).1 := by
  have hattempt : d.attempt (.closeSection position true) =
      (d.attempt (.closeSection position false)).map fun next => (next.1, .propagated) := by
    simp only [attempt]
    split
    · rfl
    · rename_i timer _
      cases d.pass timer _ with
      | error fault => rfl
      | ok next => rfl
  rw [handle, handle, hattempt]
  cases d.attempt (.closeSection position false) with
  | error fault => rfl
  | ok next => rfl

/-! ## Runs -/

/-- A desk after some events, the first one first. -/
def final : TimerDesk → List Event → TimerDesk
  | d, [] => d
  | d, event :: rest => final (d.handle event).1 rest

/-- The histories of all timers after some events. -/
def histories : TimerDesk → (Nat → List Timer.Call) → List Event → Nat → List Timer.Call
  | _, before, [] => before
  | d, before, event :: rest => histories (d.handle event).1 (record before (d.call? event)) rest

/-- **A desk never forgets**: after any events its timers are what their calls have made of them. -/
theorem Remembers.final {d : TimerDesk} {before : Nat → List Timer.Call}
    (hd : Remembers d before) (events : List Event) :
    Remembers (d.final events) (d.histories before events) := by
  induction events generalizing d before with
  | nil => exact hd
  | cons event rest ih => exact ih (hd.handle event)

theorem run_concat (d : TimerDesk) (events : List Event) (event : Event) :
    d.run (events ++ [event]) = d.run events ++ [((d.final events).handle event).2] := by
  induction events generalizing d with
  | nil => rfl
  | cons first rest ih =>
      rw [List.cons_append, run, run]
      exact congrArg _ (ih _)

end TimerDesk

end RowReduction
