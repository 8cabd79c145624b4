import RowReduction.Proofs.Elimination.Sweep

/-!
Two sweeps side by side, over tableaus with the same rows that may differ in width, and with
clearing rules of their own. When every place finds the same candidate in both and keeps a relation
between them, both sweeps get equally far: they are complete together, or stall together at one
column.
-/
namespace RowReduction

variable {α : Type} {m n n' : Nat}

namespace Sweep

/-- Two sweeps over `k` places have ended alike: both are complete, or both have stalled at the same
column with the same candidate. Their states are related by `R`, which knows how many places are
cleared. -/
inductive Alike (R : Nat → Progress α m n → Progress α m n' → Prop) (k : Nat) :
    Sweep α m n → Sweep α m n' → Prop
  | complete {s : Progress α m n} {t : Progress α m n'} (h : R k s t) :
      Alike R k (complete s) (complete t)
  | stalled {c : Nat} {candidate : α} {s : Progress α m n} {t : Progress α m n'} (hc : c < k)
      (h : R c s t) : Alike R k (stalled c candidate s) (stalled c candidate t)

theorem Alike.mono {R R' : Nat → Progress α m n → Progress α m n' → Prop}
    (hR : ∀ {k s t}, R k s t → R' k s t) {k : Nat} {x : Sweep α m n} {y : Sweep α m n'}
    (h : Alike R k x y) : Alike R' k x y := by
  cases h with
  | complete h => exact .complete (hR h)
  | stalled hc h => exact .stalled hc (hR h)

/-- Sweeps that end alike stall together. -/
theorem Alike.stalled_iff {R : Nat → Progress α m n → Progress α m n' → Prop} {k : Nat}
    {x : Sweep α m n} {y : Sweep α m n'} (h : Alike R k x y) (c : Nat) (v : α) :
    (∃ s, x = .stalled c v s) ↔ ∃ t, y = .stalled c v t := by
  cases h with
  | complete _ =>
      exact iff_of_false (fun ⟨_, h⟩ => nomatch h) (fun ⟨_, h⟩ => nomatch h)
  | @stalled b w s t _ _ =>
      constructor
      · rintro ⟨_, h⟩
        cases h
        exact ⟨t, rfl⟩
      · rintro ⟨_, h⟩
        cases h
        exact ⟨s, rfl⟩

/-- Two sweeps over `k` places have kept pace: both are complete, or both have stalled at the same
column, with candidates related by `C`. Their states are related by `R`, as above. -/
inductive KeptPace (R : Nat → Progress α m n → Progress α m n' → Prop) (C : α → α → Prop)
    (k : Nat) : Sweep α m n → Sweep α m n' → Prop
  | complete {s : Progress α m n} {t : Progress α m n'} (h : R k s t) :
      KeptPace R C k (complete s) (complete t)
  | stalled {c : Nat} {v w : α} {s : Progress α m n} {t : Progress α m n'} (hc : c < k)
      (h : R c s t) (hcandidate : C v w) : KeptPace R C k (stalled c v s) (stalled c w t)

variable [Scalar α] {clear : Diagonal m n → Progress α m n → Progress α m n}
  {clear' : Diagonal m n' → Progress α m n' → Progress α m n'} {tolerance tolerance' : α}
  {R : Nat → Progress α m n → Progress α m n' → Prop} {C : α → α → Prop} {s : Progress α m n}
  {t : Progress α m n'}

/-- **Sweeps that keep pace**, each with a tolerance of its own: when a relation holds at the start,
relates the candidates of every place so that both tests come out the same, and is kept by every
place that is not refused, the sweeps get equally far. -/
theorem run_keptPace (hstart : R 0 s t)
    (hcandidate : ∀ k hm hn hn' s t, R k s t →
      C (s.candidate ⟨k, hm, hn⟩) (t.candidate ⟨k, hm, hn'⟩))
    (htest : ∀ v w, C v w → Scalar.lt w tolerance' = Scalar.lt v tolerance)
    (hstep : ∀ k hm hn hn' s t, R k s t →
      Scalar.lt (s.candidate ⟨k, hm, hn⟩) tolerance = false →
      R (k + 1) (clear ⟨k, hm, hn⟩ (s.pivoted ⟨k, hm, hn⟩))
        (clear' ⟨k, hm, hn'⟩ (t.pivoted ⟨k, hm, hn'⟩))) :
    ∀ (k : Nat) (hm : k ≤ m) (hn : k ≤ n) (hn' : k ≤ n'),
      KeptPace R C k (run clear tolerance s k hm hn) (run clear' tolerance' t k hm hn') := by
  intro k
  induction k with
  | zero =>
      intro hm hn hn'
      exact .complete hstart
  | succ k ih =>
      intro hm hn hn'
      have hbefore := ih (Nat.le_of_succ_le hm) (Nat.le_of_succ_le hn) (Nat.le_of_succ_le hn')
      rw [run, run]
      generalize run clear tolerance s k _ _ = x at hbefore ⊢
      generalize run clear' tolerance' t k _ _ = y at hbefore ⊢
      -- sweeps that have stalled stay so; otherwise both tests at the next place come out the same
      cases hbefore with
      | stalled hc h hvw => exact .stalled (Nat.lt_succ_of_lt hc) h hvw
      | complete h =>
          rename_i u v
          have hrelated := hcandidate k hm hn hn' u v h
          rw [andThen_complete, andThen_complete, Progress.advance_eq, Progress.advance_eq,
            htest _ _ hrelated]
          cases hlt : Scalar.lt (u.candidate ⟨k, hm, hn⟩) tolerance with
          | true => exact .stalled (Nat.lt_succ_self k) h hrelated
          | false => exact .complete (hstep k hm hn hn' u v h hlt)

/-- **Sweeps in step**: when a relation holds at the start, makes both sweeps find the same
candidate at every place, and is kept by every place that is not refused, the sweeps end alike. -/
theorem run_alike (hstart : R 0 s t)
    (hcandidate : ∀ k hm hn hn' s t, R k s t →
      s.candidate ⟨k, hm, hn⟩ = t.candidate ⟨k, hm, hn'⟩)
    (hstep : ∀ k hm hn hn' s t, R k s t →
      Scalar.lt (s.candidate ⟨k, hm, hn⟩) tolerance = false →
      R (k + 1) (clear ⟨k, hm, hn⟩ (s.pivoted ⟨k, hm, hn⟩))
        (clear' ⟨k, hm, hn'⟩ (t.pivoted ⟨k, hm, hn'⟩))) :
    ∀ (k : Nat) (hm : k ≤ m) (hn : k ≤ n) (hn' : k ≤ n'),
      Alike R k (run clear tolerance s k hm hn) (run clear' tolerance t k hm hn') := by
  intro k hm hn hn'
  have hpace : KeptPace R Eq k (run clear tolerance s k hm hn) (run clear' tolerance t k hm hn') :=
    run_keptPace hstart hcandidate (fun v w hvw => by rw [hvw]) hstep k hm hn hn'
  generalize run clear tolerance s k hm hn = x at hpace ⊢
  generalize run clear' tolerance t k hm hn' = y at hpace ⊢
  cases hpace with
  | complete h => exact .complete h
  | stalled hc h hvw => exact hvw ▸ .stalled hc h

/-- **One sweep seen through a map of states** is another one, when its candidates are those of the
other and every place of it is seen as a place of the other. -/
theorem run_view (view : Progress α m n → Progress α m n')
    (hcandidate : ∀ k hm hn hn' s,
      (view s).candidate ⟨k, hm, hn'⟩ = s.candidate ⟨k, hm, hn⟩)
    (hplace : ∀ k hm hn hn' s,
      clear' ⟨k, hm, hn'⟩ ((view s).pivoted ⟨k, hm, hn'⟩) =
        view (clear ⟨k, hm, hn⟩ (s.pivoted ⟨k, hm, hn⟩)))
    (s : Progress α m n) (k : Nat) (hm : k ≤ m) (hn : k ≤ n) (hn' : k ≤ n') :
    Alike (fun _ s t => t = view s) k (run clear tolerance s k hm hn)
      (run clear' tolerance (view s) k hm hn') := by
  apply run_alike
  · rfl
  · rintro k hm hn hn' s _ rfl
    exact (hcandidate k hm hn hn' s).symm
  · rintro k hm hn hn' s _ rfl _
    exact hplace k hm hn hn' s

end Sweep

end RowReduction
