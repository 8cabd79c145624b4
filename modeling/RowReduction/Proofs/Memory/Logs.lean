import RowReduction.Proofs.Memory.Growth

/-!
Logs in memory. What a log shows are copies, so it goes on to show the same while memory grows and
while other blocks are overwritten.
-/
namespace RowReduction

namespace Step

variable {τ τ' σ' α : Type}

mutual

/-- The arrays that a step shows, those in its own log included. -/
def arrays : Step τ τ α → List τ
  | initial t | swap _ _ t | normalize _ _ t | eliminate _ _ _ t | singularPivot _ _ _ t
  | triangular t _ => [t]
  | determinantValue _ t steps => t.toList ++ arraysOf steps
  | unknown _ _ _ t steps _ => t :: arraysOf steps
  | final s t => s :: t.toList

def arraysOf : List (Step τ τ α) → List τ
  | [] => []
  | s :: rest => s.arrays ++ arraysOf rest

end

theorem arraysOf_eq_flatMap (steps : List (Step τ τ α)) : arraysOf steps = steps.flatMap arrays := by
  induction steps with
  | nil => rfl
  | cons s rest ih => rw [arraysOf, ih, List.flatMap_cons]

theorem mapAll_eq_map {σ : Type} (f : τ → τ') (g : σ → σ') (steps : List (Step τ σ α)) :
    mapAll f g steps = steps.map (map f g) := by
  induction steps with
  | nil => rfl
  | cons s rest ih => rw [mapAll, ih, List.map_cons]

variable {f f' : τ → τ'} {g g' : τ → σ'}

mutual

/-- How a step is shown depends on its own arrays only. -/
theorem map_congr (s : Step τ τ α) (h : ∀ r ∈ s.arrays, f r = f' r ∧ g r = g' r) :
    s.map f g = s.map f' g' := by
  cases s with
  | determinantValue value t steps =>
      have hsteps : mapAll f g steps = mapAll f' g' steps :=
        mapAll_congr steps fun r hr => h r (List.mem_append_right _ hr)
      cases t with
      | none => simp only [map, Option.map_none, hsteps]
      | some t =>
          have ht : f t = f' t := (h t (List.mem_append_left _ (List.mem_singleton_self t))).1
          rw [map, map, hsteps, Option.map_some, Option.map_some, ht]
  | unknown index determinant divisor t steps value =>
      have hsteps : mapAll f g steps = mapAll f' g' steps :=
        mapAll_congr steps fun r hr => h r (List.mem_cons_of_mem _ hr)
      rw [map, map, hsteps, (h t List.mem_cons_self).1]
  | final s t =>
      have hs : g s = g' s := (h s List.mem_cons_self).2
      cases t with
      | none => simp only [map, Option.map_none, hs]
      | some t =>
          have ht : f t = f' t := (h t (List.mem_cons_of_mem _ (List.mem_singleton_self t))).1
          rw [map, map, hs, Option.map_some, Option.map_some, ht]
  | initial t | swap _ _ t | normalize _ _ t | eliminate _ _ _ t | singularPivot _ _ _ t
  | triangular t _ => rw [map, map, (h t List.mem_cons_self).1]

theorem mapAll_congr (steps : List (Step τ τ α))
    (h : ∀ r ∈ arraysOf steps, f r = f' r ∧ g r = g' r) : mapAll f g steps = mapAll f' g' steps := by
  cases steps with
  | nil => rfl
  | cons s rest =>
      rw [mapAll, mapAll, map_congr s fun r hr => h r (List.mem_append_left _ hr),
        mapAll_congr rest fun r hr => h r (List.mem_append_right _ hr)]

end

end Step

/-- The arrays of a log, if there is one. -/
def loggedArrays (log : Option (List StoredStep)) : List StoredArray :=
  (log.map Step.arraysOf).getD []

/-- The log as memory stands. -/
def shownLog (μ : Memory) (log : Option (List StoredStep)) : Option (List (RowStep Binary64)) :=
  log.map (Step.mapAll (StoredArray.rows μ) (StoredArray.numbers μ))

/-- A log in memory shows certain steps, by copies that have been made since `base`. -/
structure ShowsLog (base μ : Memory) (log : Option (List StoredStep))
    (steps : Option (List (RowStep Binary64))) : Prop where
  shown : shownLog μ log = steps
  copies : ∀ r ∈ loggedArrays log, r.IsCopy base μ

theorem mem_loggedArrays_cons {log : Option (List StoredStep)} {step : StoredStep} {r : StoredArray}
    (h : r ∈ loggedArrays (log.map (step :: ·))) : r ∈ step.arrays ∨ r ∈ loggedArrays log := by
  cases log with
  | none => exact .inr h
  | some entries => exact List.mem_append.mp h

theorem mem_loggedArrays_reverse {log : Option (List StoredStep)} {r : StoredArray}
    (h : r ∈ loggedArrays (log.map List.reverse)) : r ∈ loggedArrays log := by
  cases log with
  | none => exact h
  | some entries => simpa [loggedArrays, Step.arraysOf_eq_flatMap] using h

theorem arraysOf_getD (log : Option (List StoredStep)) :
    Step.arraysOf (log.getD []) = loggedArrays log := by
  cases log <;> rfl

/-- What a log shows depends on the blocks of its arrays only. -/
theorem shownLog_congr {μ μ' : Memory} {log : Option (List StoredStep)}
    (h : ∀ r ∈ loggedArrays log, μ'.read r.address = μ.read r.address) :
    shownLog μ' log = shownLog μ log := by
  cases log with
  | none => rw [shownLog, shownLog, Option.map_none, Option.map_none]
  | some steps =>
      exact congrArg some (Step.mapAll_congr steps fun r hr =>
        ⟨StoredArray.rows_congr (h r hr), StoredArray.numbers_congr (h r hr)⟩)

namespace ShowsLog

variable {base base' μ μ' : Memory} {log : Option (List StoredStep)}
  {steps : Option (List (RowStep Binary64))}

theorem mono (h : ShowsLog base μ log steps) (hμ : μ.Extends μ') : ShowsLog base μ' log steps where
  shown := (shownLog_congr fun r hr => hμ.read_eq _ (h.copies r hr).inside).trans h.shown
  copies r hr := (h.copies r hr).mono hμ

theorem of_extends (h : ShowsLog base' μ log steps) (hbase : base.Extends base') :
    ShowsLog base μ log steps :=
  ⟨h.shown, fun r hr => (h.copies r hr).of_extends hbase⟩

/-- A log that is shown in a step of another one. -/
theorem mapAll_getD (h : ShowsLog base μ log steps) :
    Step.mapAll (StoredArray.rows μ) (StoredArray.numbers μ) (log.getD []) = steps.getD [] := by
  rw [← h.shown]
  cases log <;> rfl

/-- A block that the log does not show may be overwritten. -/
theorem overwrite (h : ShowsLog base μ log steps) {a : Nat} (entries : List Binary64)
    (ha : ∀ r ∈ loggedArrays log, r.address ≠ a) :
    ShowsLog base (μ.overwrite a entries) log steps where
  shown := (shownLog_congr fun r hr => Memory.read_overwrite_of_ne (ha r hr).symm).trans h.shown
  copies r hr := by
    obtain ⟨hreadOnly, hfresh, hinside⟩ := h.copies r hr
    exact ⟨hreadOnly, hfresh, by rwa [Memory.size_overwrite]⟩

/-- One more step, shown by copies as well. -/
theorem record {l : Log Binary64} (h : ShowsLog base μ log l.newestFirst?) {step : StoredStep}
    {step' : RowStep Binary64}
    (hstep : step.map (StoredArray.rows μ) (StoredArray.numbers μ) = step')
    (hcopies : ∀ r ∈ step.arrays, r.IsCopy base μ) :
    ShowsLog base μ (log.map (step :: ·)) (l.record fun _ => step').newestFirst? := by
  obtain ⟨shown?⟩ := l
  obtain ⟨hshown, hold⟩ := h
  cases log with
  | none =>
      cases hshown
      exact ⟨rfl, nofun⟩
  | some entries =>
      cases hshown
      refine ⟨congrArg some (congrArg₂ List.cons hstep rfl), fun r hr => ?_⟩
      exact (List.mem_append.mp hr).elim (hcopies r) (hold r)

theorem reverse (h : ShowsLog base μ log steps) :
    ShowsLog base μ (log.map List.reverse) (steps.map List.reverse) := by
  obtain ⟨hshown, hcopies⟩ := h
  cases log with
  | none =>
      cases hshown
      exact ⟨rfl, hcopies⟩
  | some entries =>
      cases hshown
      refine ⟨congrArg some ?_, fun r hr => hcopies r (mem_loggedArrays_reverse hr)⟩
      rw [Step.mapAll_eq_map, Step.mapAll_eq_map, List.map_reverse]

end ShowsLog

end RowReduction
