import RowReduction.Binary64.Conversion
import RowReduction.Proofs.Timer.Desk
import RowReduction.Proofs.Timer.Visits

/-!
The account that a timer gives. It can be had as soon as a stop has had a start before it, and it is
a function of the calls: the time of the last run, and the times of the visits that have ended, for
each name in the order in which it was first left. A timer on a desk has such a history as well,
whether its sections are left normally or by a failure, and so has the timer of a timed block.
-/
namespace RowReduction

namespace Timer

/-- Some stop had a start before it. -/
def StopSucceeded (history : List Call) : Prop :=
  ∃ later stopped earlier, history = later ++ ⟨stopped, .stop⟩ :: earlier ∧
    answer earlier ⟨stopped, .stop⟩ = .ok .done

/-- The account of a run that took `total`: its time, unless a section has the same name, and the
other sections in the order in which each was first left. -/
def account (visits : List Visit) (total : Binary64) : List (String × Binary64) :=
  (totalName, if totalName ∈ closedNames visits then spent visits totalName else total) ::
    ((closedNames visits).filter (· ≠ totalName)).map fun name => (name, spent visits name)

/-! ## Answers -/

section Answers

variable {history : List Call} (now : Binary64)

theorem answer_stop_of_none (h : (after history).startedAt = none) :
    answer history ⟨now, .stop⟩ = .error .stoppedBeforeStart := by
  simp only [answer, handle, attempt, h]

theorem answer_stop_of_some {started : Binary64} (h : (after history).startedAt = some started) :
    answer history ⟨now, .stop⟩ = .ok .done := by
  simp only [answer, handle, attempt, h]

theorem answer_closeSection_of_none {position : Nat}
    (h : (after history).opened[position]? = none) :
    answer history ⟨now, .closeSection position⟩ = .error .nothingOpen := by
  simp only [answer, handle, attempt, h]

theorem answer_closeSection_of_some {position : Nat} {entry : String × Binary64}
    (h : (after history).opened[position]? = some entry) :
    answer history ⟨now, .closeSection position⟩ = .ok .done := by
  simp only [answer, handle, attempt, h]

theorem answer_result_of_none (h : (after history).total = none) :
    answer history ⟨now, .result⟩ = .error .resultBeforeStop := by
  simp only [answer, handle, attempt, h]

theorem answer_result_of_some {total : Binary64} (h : (after history).total = some total) :
    answer history ⟨now, .result⟩ = .ok (.report (report total (after history).closed)) := by
  simp only [answer, handle, attempt, h]

end Answers

/-- **A stop needs a start before it.** -/
theorem answer_stop (history : List Call) (now : Binary64) :
    (∃ c ∈ history, c.event = .start) ∧ answer history ⟨now, .stop⟩ = .ok .done ∨
      (∀ c ∈ history, c.event ≠ .start) ∧
        answer history ⟨now, .stop⟩ = .error .stoppedBeforeStart := by
  cases h : (after history).startedAt with
  | none => exact .inr ⟨(startedAt_eq_none_iff history).mp h, answer_stop_of_none now h⟩
  | some started =>
      obtain ⟨later, earlier, rfl, _⟩ := (startedAt_eq_some_iff history started).mp h
      exact .inl ⟨⟨_, List.mem_append_right _ List.mem_cons_self, rfl⟩, answer_stop_of_some now h⟩

/-- **A section is left once**: only those that are open can be. -/
theorem answer_closeSection (history : List Call) (now : Binary64) (position : Nat) :
    position < (pending history).length ∧
        answer history ⟨now, .closeSection position⟩ = .ok .done ∨
      (pending history).length ≤ position ∧
        answer history ⟨now, .closeSection position⟩ = .error .nothingOpen := by
  have hopened : (after history).opened[position]? =
      (pending history)[position]?.map Opening.entry := by
    rw [opened_after, List.getElem?_map]
  by_cases h : position < (pending history).length
  · rw [List.getElem?_eq_getElem h] at hopened
    exact .inl ⟨h, answer_closeSection_of_some now hopened⟩
  · rw [List.getElem?_eq_none (Nat.not_lt.mp h)] at hopened
    exact .inr ⟨Nat.not_lt.mp h, answer_closeSection_of_none now hopened⟩

/-! ## Results -/

theorem total_ne_none_iff (history : List Call) :
    (after history).total ≠ none ↔ StopSucceeded history := by
  constructor
  · intro h
    obtain ⟨total, htotal⟩ := Option.ne_none_iff_exists'.mp h
    obtain ⟨started, stopped, ⟨later, earlier, rfl, _, hstart⟩, _⟩ := exists_lastRun htotal
    have hstarted := (startedAt_eq_some_iff earlier started).mpr hstart
    exact ⟨later, stopped, earlier, rfl, answer_stop_of_some stopped hstarted⟩
  · rintro ⟨later, stopped, earlier, rfl, hstop⟩
    induction later with
    | nil =>
        cases hstart : (after earlier).startedAt with
        | none =>
            rw [answer_stop_of_none stopped hstart] at hstop
            cases hstop
        | some started =>
            rw [List.nil_append, after_stop_of_some stopped hstart]
            exact Option.some_ne_none _
    | cons call later ih => exact total_after_ne_none ih call

theorem find?_tally (visits : List Visit) (name : String) :
    (tally visits).find? (·.1 = name) =
      if name ∈ closedNames visits then some (name, spent visits name) else none := by
  rw [tally]
  induction closedNames visits with
  | nil => rfl
  | cons key rest ih =>
      rw [List.map_cons, List.find?_cons]
      by_cases h : key = name
      · subst h
        simp
      · simp only [decide_eq_false h, ih, List.mem_cons, Ne.symm h, false_or]

/-- A timer reports the account of its visits. -/
theorem report_tally (total : Binary64) (visits : List Visit) :
    report total (tally visits) = account visits total := by
  rw [report, account, find?_tally]
  congr 1
  · split
    · rfl
    · rfl
  · rw [tally, List.filter_map]
    rfl

/-- **A result needs a stop that had a start before it**, and is the account of the last run. -/
theorem answer_result (history : List Call) (now : Binary64) :
    StopSucceeded history ∧ (∃ started stopped, LastRun history started stopped ∧
        answer history ⟨now, .result⟩ =
          .ok (.report (account (visits history) (stopped - started)))) ∨
      ¬ StopSucceeded history ∧ answer history ⟨now, .result⟩ = .error .resultBeforeStop := by
  rw [← total_ne_none_iff]
  cases h : (after history).total with
  | none => exact .inr ⟨fun hne => hne rfl, answer_result_of_none now h⟩
  | some total =>
      obtain ⟨started, stopped, hrun, rfl⟩ := exists_lastRun h
      refine .inl ⟨Option.some_ne_none _, started, stopped, hrun, ?_⟩
      rw [answer_result_of_some now h, closed_after, report_tally]

/-- **The account of a timer**, for all calls and all readings of the clock. A stop fails exactly
without a start before it, and a result exactly without a stop that had one; sections can be left
exactly while they are open, and a call that fails changes nothing. A result is the time from the
latest start before the last such stop, unless a section has the name of that entry, and then the
times of the sections that have been left. The timers of a desk give the same accounts: after all
events they are what their calls have made of them, and leaving a section by a failure makes the
same of the desk as leaving it normally. -/
theorem gives_account (history : List Call) (now : Binary64) :
    ((∃ c ∈ history, c.event = .start) ∧ answer history ⟨now, .stop⟩ = .ok .done ∨
      (∀ c ∈ history, c.event ≠ .start) ∧
        answer history ⟨now, .stop⟩ = .error .stoppedBeforeStart) ∧
    (StopSucceeded history ∧ (∃ started stopped, LastRun history started stopped ∧
        answer history ⟨now, .result⟩ =
          .ok (.report (account (visits history) (stopped - started)))) ∨
      ¬ StopSucceeded history ∧ answer history ⟨now, .result⟩ = .error .resultBeforeStop) ∧
    Fault.stoppedBeforeStart.kind = .misuse ∧ Fault.resultBeforeStop.kind = .misuse ∧
    answer history ⟨now, .start⟩ = .ok .done ∧
    (∀ name, answer history ⟨now, .openSection name⟩ = .ok .done) ∧
    (∀ position,
      position < (pending history).length ∧
          answer history ⟨now, .closeSection position⟩ = .ok .done ∨
        (pending history).length ≤ position ∧
          answer history ⟨now, .closeSection position⟩ = .error .nothingOpen) ∧
    (∀ call fault, answer history call = .error fault →
      after (call :: history) = after history) ∧
    ∀ clock events,
      let d : TimerDesk := TimerDesk.final { clock := clock } events
      let histories := TimerDesk.histories { clock := clock } (fun _ => []) events
      (∀ k, d.timers.getD k .fresh = after (histories k)) ∧
      TimerDesk.run { clock := clock } (events ++ [.result]) =
        TimerDesk.run { clock := clock } events ++
          [(answer (histories d.current) ⟨d.clock, .result⟩).map TimerDesk.Reply.ofTimer] ∧
      ∀ position, (d.handle (.closeSection position true)).1 =
        (d.handle (.closeSection position false)).1 := by
  refine ⟨answer_stop history now, answer_result history now, rfl, rfl, rfl, fun _ => rfl,
    answer_closeSection history now, fun _ _ => after_of_error, fun clock events => ?_⟩
  intro d histories
  have hd : d.Remembers histories := (TimerDesk.remembers_new clock).final events
  refine ⟨hd.timers, ?_, d.handle_closeSection_failing⟩
  rw [TimerDesk.run_concat, (hd.handle_of_pass hd.current rfl).2]

/-- Two visits of one section, the second of them across a new start, while another section stays
open and a third one has the name of the overall time. The latest call comes first. -/
def overlapping : List Call :=
  [⟨.ofNat 13, .stop⟩, ⟨.ofNat 12, .closeSection 1⟩, ⟨.ofNat 11, .openSection totalName⟩,
    ⟨.ofNat 10, .closeSection 1⟩, ⟨.ofNat 9, .start⟩, ⟨.ofNat 8, .stop⟩,
    ⟨.ofNat 7, .openSection "a"⟩, ⟨.ofNat 6, .closeSection 0⟩, ⟨.ofNat 3, .openSection "b"⟩,
    ⟨.ofNat 2, .openSection "a"⟩, ⟨.ofNat 1, .start⟩]

theorem gives_account_of_overlapping_sections :
    StopSucceeded overlapping ∧
      answer overlapping ⟨.ofNat 14, .result⟩ =
        .ok (.report [(totalName, .ofNat 1), ("a", .ofNat 7)]) ∧
      answer overlapping ⟨.ofNat 14, .closeSection 1⟩ = .error .nothingOpen ∧
      after (⟨.ofNat 14, .closeSection 1⟩ :: overlapping) = after overlapping := by
  obtain ⟨_, hresult, _, _, _, _, hclose, hfailed, _⟩ := gives_account overlapping (.ofNat 14)
  have hstop : StopSucceeded overlapping := ⟨[], _, _, rfl, rfl⟩
  have hpending : (pending overlapping).length = 1 := by decide +kernel
  have hclosed : answer overlapping ⟨.ofNat 14, .closeSection 1⟩ = .error .nothingOpen := by
    rcases hclose 1 with ⟨hlt, _⟩ | ⟨_, hfault⟩
    · omega
    · exact hfault
  refine ⟨hstop, ?_, hclosed, hfailed _ _ hclosed⟩
  rcases hresult with ⟨_, started, stopped, _, hreport⟩ | ⟨hnot, _⟩
  · -- the section takes the place of the overall time, whatever that is
    have haccount : account (visits overlapping) (stopped - started) =
        [(totalName, .ofNat 1), ("a", .ofNat 7)] := by
      have hspent : account (visits overlapping) .zero =
          [(totalName, .ofNat 1), ("a", .ofNat 7)] := by decide +kernel
      rw [← hspent, account, account]
      rw [if_pos (by decide +kernel), if_pos (by decide +kernel)]
    rw [hreport, haccount]
  · exact absurd hstop hnot

end Timer

end RowReduction
