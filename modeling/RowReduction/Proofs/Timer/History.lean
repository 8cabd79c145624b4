import RowReduction.Timer.Basic

/-!
What the calls of a timer have made of it. A history lists the calls that came before, the latest
one first, each with the reading of the clock. The latest start and the last stop that had a start
before it are read off a history without a timer; a timer to which these calls have happened was
started at the one and holds the time between both.
-/
namespace RowReduction.Timer

/-- A call of a timer, with the reading of the clock at which it is made. -/
structure Call where
  now : Binary64
  event : Event

/-- Makes a call; one that fails leaves the timer as it was. -/
def handle (t : Timer) (call : Call) : Timer × Except Fault Reply :=
  match t.attempt call.now call.event with
  | .ok (t', reply) => (t', .ok reply)
  | .error fault => (t, .error fault)

/-- A timer after the calls of a history. -/
def after : List Call → Timer
  | [] => .fresh
  | call :: earlier => ((after earlier).handle call).1

/-- How a call is answered after a history. -/
def answer (history : List Call) (call : Call) : Except Fault Reply :=
  ((after history).handle call).2

/-! ## What a history says -/

/-- The reading at the latest start. -/
def LatestStart (history : List Call) (started : Binary64) : Prop :=
  ∃ later earlier, history = later ++ ⟨started, .start⟩ :: earlier ∧ ∀ c ∈ later, c.event ≠ .start

/-- The readings at the last stop that had a start before it, and at the latest start before it. -/
def LastRun (history : List Call) (started stopped : Binary64) : Prop :=
  ∃ later earlier, history = later ++ ⟨stopped, .stop⟩ :: earlier ∧
    (∀ c ∈ later, c.event ≠ .stop) ∧ LatestStart earlier started

/-! ## What one call does -/

section Calls

variable (now : Binary64) {history : List Call}

theorem after_stop_of_none (h : (after history).startedAt = none) :
    after (⟨now, .stop⟩ :: history) = after history := by
  simp only [after, handle, attempt, h]

theorem after_stop_of_some {started : Binary64} (h : (after history).startedAt = some started) :
    after (⟨now, .stop⟩ :: history) = { after history with total := some (now - started) } := by
  simp only [after, handle, attempt, h]

/-- A stop concerns nothing but the overall time. -/
theorem exists_after_stop (history : List Call) : ∃ total,
    after (⟨now, .stop⟩ :: history) = { after history with total := total } := by
  cases h : (after history).startedAt with
  | none => exact ⟨_, after_stop_of_none now h⟩
  | some started => exact ⟨_, after_stop_of_some now h⟩

theorem after_openSection (name : String) :
    after (⟨now, .openSection name⟩ :: history) =
      { after history with opened := (after history).opened ++ [(name, now)] } := rfl

theorem after_closeSection_of_none {position : Nat}
    (h : (after history).opened[position]? = none) :
    after (⟨now, .closeSection position⟩ :: history) = after history := by
  simp only [after, handle, attempt, h]

theorem after_closeSection_of_some {position : Nat} {name : String} {start : Binary64}
    (h : (after history).opened[position]? = some (name, start)) :
    after (⟨now, .closeSection position⟩ :: history) =
      { after history with
        opened := (after history).opened.eraseIdx position
        closed := addTo name (now - start) (after history).closed } := by
  simp only [after, handle, attempt, h]

/-- Leaving a section concerns nothing but the sections. -/
theorem exists_after_closeSection (history : List Call) (position : Nat) : ∃ opened closed,
    after (⟨now, .closeSection position⟩ :: history) =
      { after history with opened := opened, closed := closed } := by
  cases h : (after history).opened[position]? with
  | none => exact ⟨_, _, after_closeSection_of_none now h⟩
  | some entry => exact ⟨_, _, after_closeSection_of_some now h⟩

theorem after_result : after (⟨now, .result⟩ :: history) = after history := by
  simp only [after, handle, attempt]
  split <;> rename_i h <;> split at h <;> cases h <;> rfl

end Calls

/-- A call that fails changes nothing. -/
theorem after_of_error {history : List Call} {call : Call} {fault : Fault}
    (h : answer history call = .error fault) : after (call :: history) = after history := by
  simp only [answer, handle] at h
  simp only [after, handle]
  split at h
  · cases h
  · rfl

/-! ## Starts and stops -/

/-- The reading of a call that starts the timer. -/
def Call.start? (call : Call) : Option Binary64 :=
  match call.event with
  | .start => some call.now
  | _ => none

theorem Call.start?_eq_none_iff (call : Call) : call.start? = none ↔ call.event ≠ .start := by
  obtain ⟨now, event⟩ := call
  cases event <;> simp [start?]

theorem Call.start?_eq_some_iff (call : Call) (started : Binary64) :
    call.start? = some started ↔ call = ⟨started, .start⟩ := by
  obtain ⟨now, event⟩ := call
  cases event <;> simp [start?]

theorem startedAt_after (history : List Call) :
    (after history).startedAt = history.findSome? Call.start? := by
  induction history with
  | nil => rfl
  | cons call earlier ih =>
      obtain ⟨now, event⟩ := call
      cases event with
      | start => rfl
      | stop =>
          obtain ⟨total, htotal⟩ := exists_after_stop now earlier
          rw [htotal]
          exact ih
      | openSection name => exact ih
      | closeSection position =>
          obtain ⟨opened, closed, hsections⟩ :=
            exists_after_closeSection now earlier position
          rw [hsections]
          exact ih
      | result =>
          rw [after_result]
          exact ih

/-- **The timer was started at the latest start.** -/
theorem startedAt_eq_some_iff (history : List Call) (started : Binary64) :
    (after history).startedAt = some started ↔ LatestStart history started := by
  rw [startedAt_after, List.findSome?_eq_some_iff]
  constructor
  · rintro ⟨later, call, earlier, rfl, hcall, hlater⟩
    rw [Call.start?_eq_some_iff] at hcall
    subst hcall
    exact ⟨later, earlier, rfl, fun c hc => (c.start?_eq_none_iff).mp (hlater c hc)⟩
  · rintro ⟨later, earlier, rfl, hlater⟩
    exact ⟨later, _, earlier, rfl, rfl, fun c hc => (c.start?_eq_none_iff).mpr (hlater c hc)⟩

theorem startedAt_eq_none_iff (history : List Call) :
    (after history).startedAt = none ↔ ∀ c ∈ history, c.event ≠ .start := by
  rw [startedAt_after, List.findSome?_eq_none_iff]
  exact forall₂_congr fun c _ => c.start?_eq_none_iff

/-- A call that does not stop the timer does not change the overall time. -/
theorem total_after_of_ne_stop {call : Call} (h : call.event ≠ .stop) (history : List Call) :
    (after (call :: history)).total = (after history).total := by
  obtain ⟨now, event⟩ := call
  cases event with
  | start => rfl
  | stop => exact absurd rfl h
  | openSection name => rfl
  | closeSection position =>
      obtain ⟨opened, closed, hsections⟩ := exists_after_closeSection now history position
      rw [hsections]
  | result => rw [after_result]

theorem lastRun_of_cons_ne_stop {call : Call} {history : List Call} (hcall : call.event ≠ .stop)
    {started stopped : Binary64} (h : LastRun history started stopped) :
    LastRun (call :: history) started stopped := by
  obtain ⟨later, earlier, rfl, hlater, hstart⟩ := h
  exact ⟨call :: later, earlier, rfl, List.forall_mem_cons.mpr ⟨hcall, hlater⟩, hstart⟩

/-- **The overall time is that of the last run.** -/
theorem exists_lastRun {history : List Call} {total : Binary64}
    (h : (after history).total = some total) :
    ∃ started stopped, LastRun history started stopped ∧ total = stopped - started := by
  induction history with
  | nil => cases h
  | cons call earlier ih =>
      by_cases hcall : call.event = .stop
      · obtain ⟨now, event⟩ := call
        cases hcall
        cases hstart : (after earlier).startedAt with
        | none =>
            -- without a start no stop has been counted
            rw [after_stop_of_none now hstart] at h
            obtain ⟨started, stopped, ⟨later, rest, rfl, _, hrun⟩, _⟩ := ih h
            have hnone := (startedAt_eq_none_iff _).mp hstart
            obtain ⟨between, first, rfl, _⟩ := hrun
            exact absurd rfl (hnone ⟨started, .start⟩ (by simp))
        | some started =>
            rw [after_stop_of_some now hstart] at h
            refine ⟨started, now, ⟨[], earlier, rfl, by simp, ?_⟩, (Option.some.inj h).symm⟩
            exact (startedAt_eq_some_iff earlier started).mp hstart
      · rw [total_after_of_ne_stop hcall] at h
        obtain ⟨started, stopped, hrun, htotal⟩ := ih h
        exact ⟨started, stopped, lastRun_of_cons_ne_stop hcall hrun, htotal⟩

/-- Once there is an overall time, there always is one. -/
theorem total_after_ne_none {history : List Call} (h : (after history).total ≠ none)
    (call : Call) : (after (call :: history)).total ≠ none := by
  by_cases hcall : call.event = .stop
  · obtain ⟨now, event⟩ := call
    cases hcall
    cases hstart : (after history).startedAt with
    | none => rwa [after_stop_of_none now hstart]
    | some started =>
        rw [after_stop_of_some now hstart]
        exact Option.some_ne_none _
  · rwa [total_after_of_ne_stop hcall]

end RowReduction.Timer
