import RowReduction.Elimination.Sweep

/-!
What a sweep does, place by place. A place is either refused, which leaves everything as it was, or
its pivot row is brought up and the clearing rule takes over. What every place preserves holds at
the end of a complete sweep, and up to the place that a stalled sweep refused.
-/
namespace RowReduction

variable {α : Type} {m n : Nat}

theorem Tableau.swapRows_self (M : Tableau α m n) (i : Fin m) : M.swapRows i i = M := by
  ext r j
  rw [Tableau.swapRows_apply]
  split
  · rename_i hr
    rw [hr]
  · rfl

namespace Progress

@[simp] theorem become_working (s : Progress α m n) (M : Tableau α m n)
    (step : List (List α) → RowStep α) : (s.become M step).working = M := rfl

@[simp] theorem become_swaps (s : Progress α m n) (M : Tableau α m n)
    (step : List (List α) → RowStep α) : (s.become M step).swaps = s.swaps := rfl

@[simp] theorem become_pivots (s : Progress α m n) (M : Tableau α m n)
    (step : List (List α) → RowStep α) : (s.become M step).pivots = s.pivots := rfl

@[simp] theorem bringUp_working (s : Progress α m n) (i p : Fin m) :
    (s.bringUp i p).working = s.working.swapRows i p := by
  rw [bringUp]
  split
  · rename_i hp
    rw [hp, Tableau.swapRows_self]
  · rfl

@[simp] theorem bringUp_pivots (s : Progress α m n) (i p : Fin m) :
    (s.bringUp i p).pivots = s.pivots := by
  rw [bringUp]
  split <;> rfl

theorem bringUp_swaps (s : Progress α m n) (i p : Fin m) :
    (s.bringUp i p).swaps = if p = i then s.swaps else s.swaps + 1 := by
  rw [bringUp]
  split <;> rfl

@[simp] theorem takePivot_working (s : Progress α m n) (d : Diagonal m n) :
    (s.takePivot d).working = s.working := rfl

@[simp] theorem takePivot_swaps (s : Progress α m n) (d : Diagonal m n) :
    (s.takePivot d).swaps = s.swaps := rfl

@[simp] theorem takePivot_pivots (s : Progress α m n) (d : Diagonal m n) :
    (s.takePivot d).pivots = s.pivots ++ [s.working d.row d.column] := rfl

variable [Scalar α]

/-- The row that a sweep chooses at a place. -/
def choice (s : Progress α m n) (d : Diagonal m n) : Fin m := s.working.pivotRow d.row d.column

/-- The magnitude that a sweep compares with the tolerance at a place. -/
def candidate (s : Progress α m n) (d : Diagonal m n) : α :=
  Scalar.abs (s.working (s.choice d) d.column)

/-- The state that a sweep hands to its clearing rule at a place. -/
def pivoted (s : Progress α m n) (d : Diagonal m n) : Progress α m n :=
  (s.bringUp d.row (s.choice d)).takePivot d

theorem le_choice (s : Progress α m n) (d : Diagonal m n) : d.row ≤ s.choice d :=
  s.working.le_pivotRow d.row d.column

theorem pivoted_working (s : Progress α m n) (d : Diagonal m n) :
    (s.pivoted d).working = s.working.swapRows d.row (s.choice d) := by
  simp [pivoted]

theorem pivoted_working_row (s : Progress α m n) (d : Diagonal m n) (j : Fin n) :
    (s.pivoted d).working d.row j = s.working (s.choice d) j := by
  rw [pivoted_working, Tableau.swapRows_apply, if_pos rfl]

/-- Rows above the place stay as they are when the pivot row is brought up. -/
theorem pivoted_working_above (s : Progress α m n) (d : Diagonal m n) {r : Fin m}
    (hr : r < d.row) (j : Fin n) : (s.pivoted d).working r j = s.working r j := by
  have hchoice := s.le_choice d
  rw [pivoted_working, Tableau.swapRows_apply, if_neg (by omega), if_neg (by omega)]

theorem pivoted_swaps (s : Progress α m n) (d : Diagonal m n) :
    (s.pivoted d).swaps = if s.choice d = d.row then s.swaps else s.swaps + 1 := by
  rw [pivoted, takePivot_swaps, bringUp_swaps]

theorem pivoted_pivots (s : Progress α m n) (d : Diagonal m n) :
    (s.pivoted d).pivots = s.pivots ++ [(s.pivoted d).working d.row d.column] := by
  simp [pivoted]

theorem abs_pivot (s : Progress α m n) (d : Diagonal m n) :
    Scalar.abs ((s.pivoted d).working d.row d.column) = s.candidate d := by
  rw [pivoted_working_row, candidate]

variable (clear : Diagonal m n → Progress α m n → Progress α m n) (tolerance : α)

theorem advance_eq (d : Diagonal m n) (s : Progress α m n) :
    advance clear tolerance d s =
      if Scalar.lt (s.candidate d) tolerance then .stalled d.index (s.candidate d) s
      else .complete (clear d (s.pivoted d)) := rfl

variable {clear tolerance}

/-- A place that is not refused has a candidate that reaches the tolerance, and its clearing rule
was applied. -/
theorem advance_eq_complete {d : Diagonal m n} {s t : Progress α m n}
    (h : advance clear tolerance d s = .complete t) :
    Scalar.lt (s.candidate d) tolerance = false ∧ t = clear d (s.pivoted d) := by
  rw [advance_eq] at h
  split at h
  · exact nomatch h
  · rename_i hlt
    cases h
    exact ⟨Bool.eq_false_iff.mpr hlt, rfl⟩

/-- A refused place has a candidate below the tolerance and leaves the state as it was. -/
theorem advance_eq_stalled {d : Diagonal m n} {s t : Progress α m n} {c : Nat} {v : α}
    (h : advance clear tolerance d s = .stalled c v t) :
    c = d.index ∧ v = s.candidate d ∧ t = s ∧ Scalar.lt (s.candidate d) tolerance = true := by
  rw [advance_eq] at h
  split at h
  · rename_i hlt
    cases h
    exact ⟨rfl, rfl, rfl, hlt⟩
  · exact nomatch h

end Progress

namespace Sweep

/-- The state of a complete sweep has a property. -/
def WhenComplete (P : Progress α m n → Prop) : Sweep α m n → Prop
  | complete s => P s
  | stalled .. => True

instance (P : Progress α m n → Prop) [DecidablePred P] : DecidablePred (WhenComplete P)
  | complete s => inferInstanceAs (Decidable (P s))
  | stalled .. => .isTrue trivial

/-- A sweep that is never complete stalls. -/
theorem exists_stalled {x : Sweep α m n} (h : ∀ t, x ≠ complete t) : ∃ c v t, x = stalled c v t := by
  cases x with
  | complete t => exact absurd rfl (h t)
  | stalled c v t => exact ⟨c, v, t, rfl⟩

variable [Scalar α] {clear : Diagonal m n → Progress α m n → Progress α m n} {tolerance : α}

/-- **Passing a place**: a sweep that starts from `s` comes to the place `d` in the state `t`, and
finds a candidate there that is not below the tolerance. -/
structure Passes (clear : Diagonal m n → Progress α m n → Progress α m n) (tolerance : α)
    (s : Progress α m n) (d : Diagonal m n) (t : Progress α m n) : Prop where
  reached : run clear tolerance s d.index (Nat.le_of_lt d.row_lt) (Nat.le_of_lt d.column_lt) =
    complete t
  accepted : Scalar.lt (t.candidate d) tolerance = false

/-- A place that is passed is cleared. -/
theorem Passes.run_succ {s t : Progress α m n} {d : Diagonal m n}
    (h : Passes clear tolerance s d t) :
    run clear tolerance s (d.index + 1) d.row_lt d.column_lt =
      complete (clear d (t.pivoted d)) := by
  rw [run, h.reached, andThen_complete, Progress.advance_eq, h.accepted]
  rfl

/-- A sweep that is complete has passed its last place. -/
theorem passes_of_run_succ {s t : Progress α m n} {k : Nat} {hm : k + 1 ≤ m} {hn : k + 1 ≤ n}
    (h : run clear tolerance s (k + 1) hm hn = complete t) :
    ∃ u, Passes clear tolerance s ⟨k, hm, hn⟩ u ∧
      t = clear ⟨k, hm, hn⟩ (u.pivoted ⟨k, hm, hn⟩) := by
  obtain ⟨u, hu, ht⟩ := andThen_eq_complete h
  obtain ⟨hlt, rfl⟩ := Progress.advance_eq_complete ht
  exact ⟨u, ⟨hu, hlt⟩, rfl⟩

/-- A complete sweep has passed all its places. -/
theorem exists_passes {s t : Progress α m n} {k : Nat} {hm : k ≤ m} {hn : k ≤ n}
    (h : run clear tolerance s k hm hn = complete t) (d : Diagonal m n) (hd : d.index < k) :
    ∃ u, Passes clear tolerance s d u := by
  induction k generalizing t with
  | zero => exact absurd hd (Nat.not_lt_zero _)
  | succ k ih =>
      obtain ⟨u, hu, _⟩ := passes_of_run_succ h
      rcases Nat.lt_succ_iff_lt_or_eq.mp hd with hlt | heq
      · exact ih hu.reached hlt
      · cases d
        cases heq
        exact ⟨u, hu⟩

theorem passes_of_reached {s t : Progress α m n} {k : Nat} {hm : k ≤ m} {hn : k ≤ n}
    (h : run clear tolerance s k hm hn = complete t) (d : Diagonal m n) (hd : d.index < k)
    {u : Progress α m n}
    (hu : run clear tolerance s d.index (Nat.le_of_lt d.row_lt) (Nat.le_of_lt d.column_lt) =
      complete u) : Passes clear tolerance s d u := by
  obtain ⟨v, hv⟩ := exists_passes h d hd
  cases hu.symm.trans hv.reached
  exact hv

/-- **Invariants of a sweep**: what holds at the start and is preserved by every place that is
passed holds after any number of places. -/
theorem run_invariant {I : Nat → Progress α m n → Prop} {s : Progress α m n} (hstart : I 0 s)
    (hstep : ∀ (d : Diagonal m n) (t : Progress α m n), Passes clear tolerance s d t →
      I d.index t → I (d.index + 1) (clear d (t.pivoted d))) :
    ∀ (k : Nat) (hm : k ≤ m) (hn : k ≤ n) {t : Progress α m n},
      run clear tolerance s k hm hn = complete t → I k t := by
  intro k
  induction k with
  | zero =>
      intro hm hn t h
      cases h
      exact hstart
  | succ k ih =>
      intro hm hn t h
      obtain ⟨u, hu, rfl⟩ := passes_of_run_succ h
      exact hstep ⟨k, hm, hn⟩ u hu (ih _ _ hu.reached)

/-- Invariants that every place with an acceptable candidate preserves, whether the sweep comes
there or not. -/
theorem run_complete {I : Nat → Progress α m n → Prop} {s : Progress α m n} (hstart : I 0 s)
    (hstep : ∀ (d : Diagonal m n) (s : Progress α m n), I d.index s →
      Scalar.lt (s.candidate d) tolerance = false → I (d.index + 1) (clear d (s.pivoted d))) :
    ∀ (k : Nat) (hm : k ≤ m) (hn : k ≤ n) {t : Progress α m n},
      run clear tolerance s k hm hn = complete t → I k t :=
  run_invariant hstart fun d t h hI => hstep d t hI h.accepted

/-- A stalled sweep was complete up to the place that it refused. -/
theorem run_stalled {s : Progress α m n} :
    ∀ (k : Nat) (hm : k ≤ m) (hn : k ≤ n) {c : Nat} {v : α} {t : Progress α m n},
      run clear tolerance s k hm hn = stalled c v t →
      ∃ d : Diagonal m n, c = d.index ∧ v = t.candidate d ∧
        Scalar.lt (t.candidate d) tolerance = true ∧
        run clear tolerance s d.index (Nat.le_of_lt d.row_lt) (Nat.le_of_lt d.column_lt) =
          complete t := by
  intro k
  induction k with
  | zero =>
      intro hm hn c v t h
      exact nomatch h
  | succ k ih =>
      intro hm hn c v t h
      rw [run] at h
      cases hrun : run clear tolerance s k (Nat.le_of_succ_le hm) (Nat.le_of_succ_le hn) with
      | complete u =>
          -- the last place is the one refused
          rw [hrun, andThen_complete] at h
          obtain ⟨hc, hv, rfl, hlt⟩ := Progress.advance_eq_stalled h
          exact ⟨⟨k, hm, hn⟩, hc, hv, hlt, hrun⟩
      | stalled b w u =>
          -- an earlier place was refused, and the sweep went no further
          rw [hrun, andThen_stalled] at h
          cases h
          exact ih _ _ hrun

/-- A sweep stalls at one of its places. -/
theorem column_lt_of_run_stalled {s : Progress α m n} :
    ∀ (k : Nat) (hm : k ≤ m) (hn : k ≤ n) {c : Nat} {v : α} {t : Progress α m n},
      run clear tolerance s k hm hn = stalled c v t → c < k := by
  intro k
  induction k with
  | zero =>
      intro hm hn c v t h
      exact nomatch h
  | succ k ih =>
      intro hm hn c v t h
      rw [run] at h
      cases hrun : run clear tolerance s k (Nat.le_of_succ_le hm) (Nat.le_of_succ_le hn) with
      | complete u =>
          rw [hrun, andThen_complete] at h
          obtain ⟨hc, _⟩ := Progress.advance_eq_stalled h
          rw [hc]
          exact Nat.lt_succ_self k
      | stalled b w u =>
          rw [hrun, andThen_stalled] at h
          cases h
          exact Nat.lt_succ_of_lt (ih _ _ hrun)

end Sweep

end RowReduction
