import RowReduction.Proofs.Binary64.Exactness
import RowReduction.Proofs.Elimination.TriangularLog

/-!
The pivots of a sweep, and how the fields of a triangular reduction fit together. Every place that
is passed adds one pivot, and that pivot reaches the tolerance. A row that has been pivot row is
neither moved nor rewritten by the later places of a triangular sweep, so the pivots stay on the
diagonal and the determinant is their product, with the sign of the exchanges.
-/
namespace RowReduction

variable {α : Type} {m n : Nat}

namespace Progress

/-- The pivots of the first `k` places stand on the diagonal. -/
def PivotsOnDiagonal (k : Nat) (s : Progress α m n) : Prop :=
  ∀ d : Diagonal m n, d.index < k → s.pivots[d.index]? = some (s.working d.row d.column)

variable [Scalar α]

/-- One pivot was taken at each of `k` places, and every one of them reaches the tolerance. -/
structure HasPivots (tolerance : α) (k : Nat) (s : Progress α m n) : Prop where
  length : s.pivots.length = k
  accepted : ∀ p ∈ s.pivots, Scalar.lt (Scalar.abs p) tolerance = false

variable {tolerance : α} {d : Diagonal m n} {s : Progress α m n}

/-- A place that is passed takes one pivot more. -/
theorem HasPivots.pivoted (h : s.HasPivots tolerance d.index)
    (hlt : Scalar.lt (s.candidate d) tolerance = false) :
    (s.pivoted d).HasPivots tolerance (d.index + 1) where
  length := by rw [pivoted_pivots, List.length_append, h.length, List.length_singleton]
  accepted := by
    intro p hp
    rw [pivoted_pivots, List.mem_append, List.mem_singleton] at hp
    rcases hp with hp | rfl
    · exact h.accepted p hp
    · rwa [abs_pivot]

/-- No pivot that reaches a positive tolerance is zero. -/
theorem HasPivots.isZero_eq_false {tolerance : Binary64} {k : Nat} {s : Progress Binary64 m n}
    (h : s.HasPivots tolerance k) (htol : Binary64.zero.lt tolerance = true) :
    ∀ p ∈ s.pivots, p.isZero = false :=
  fun p hp => Binary64.isZero_eq_false_of_abs_not_lt (h.accepted p hp) htol

/-- **A place of a triangular sweep** leaves the earlier pivot rows where and as they are, and puts
the new pivot on the diagonal. -/
theorem PivotsOnDiagonal.step (h : s.PivotsOnDiagonal d.index)
    (hlength : s.pivots.length = d.index) :
    ((s.pivoted d).clearBelow d).PivotsOnDiagonal (d.index + 1) := by
  intro e he
  rw [clearBelow_pivots, pivoted_pivots,
    clearBelow_working_above (show e.row ≤ d.row from Nat.le_of_lt_succ he)]
  rcases Nat.lt_succ_iff_lt_or_eq.mp he with hlt | heq
  · rw [List.getElem?_append_left (by omega), pivoted_working_above s d hlt]
    exact h e hlt
  · have hplace : e = d := by
      cases e
      cases d
      cases heq
      rfl
    rw [hplace, ← hlength, List.getElem?_concat_length]

end Progress

namespace Sweep

variable [Scalar α] {clear : Diagonal m n → Progress α m n → Progress α m n} {tolerance : α}
  {M : Tableau α m n} {log : Log α} {k : Nat} {hm : k ≤ m} {hn : k ≤ n} {t : Progress α m n}

/-- **A sweep takes a pivot at every place** that it passes, and none that is below the tolerance.
-/
theorem run_hasPivots (hclear : ∀ d s, (clear d s).pivots = s.pivots)
    (h : run clear tolerance (.start M log) k hm hn = complete t) : t.HasPivots tolerance k := by
  apply run_complete (I := fun k t => t.HasPivots tolerance k) _ _ k hm hn h
  · exact ⟨rfl, fun p hp => nomatch hp⟩
  · intro d s hs hlt
    obtain ⟨hlength, haccepted⟩ := hs.pivoted hlt
    exact ⟨(hclear d _).symm ▸ hlength, (hclear d _).symm ▸ haccepted⟩

end Sweep

namespace Tableau

/-- **What a triangular reduction shows** is the state of its sweep: after the places before the
singular column, or after all of them. The steps that it adds to the log show the tableau in that
state, if they show one. -/
theorem triangulate_shows [Scalar α] (A : Tableau α n n) (tolerance : α) (log : Log α) :
    let T := A.triangulate tolerance log
    ∃ (k : Nat) (hk : k ≤ n) (s : Progress α n n), T.singularColumn.getD n = k ∧
      Sweep.run Progress.clearBelow tolerance (.start A log) k hk hk = .complete s ∧
      T.sign = s.sign ∧ T.swaps = s.swaps ∧ T.pivots = s.pivots ∧ T.triangular = s.working ∧
      ∃ ending, s.log.Extended ending T.log ∧ ∀ step ∈ ending,
        step.factor? = none ∧ ∀ rows ∈ step.tableau?, rows = s.working.toLists := by
  intro T
  cases hcolumn : T.singularColumn with
  | none =>
      obtain ⟨s, hsweep, hs⟩ := triangulate_of_none hcolumn
      rw [triangularSweep_square] at hsweep
      have hT : T = s.triangulation := hs
      rw [hT]
      refine ⟨n, le_refl n, s, rfl, hsweep, rfl, rfl, rfl, rfl, _,
        (s.log.extended_record _).trans (Log.extended_record _ _), ?_⟩
      simp [Step.factor?, Step.tableau?]
  | some c =>
      obtain ⟨v, s, hsweep, hs⟩ := triangulate_of_some hcolumn
      rw [triangularSweep_square] at hsweep
      obtain ⟨d, rfl, _, _, hbefore⟩ := Sweep.run_stalled n _ _ hsweep
      have hT : T = s.singularTriangulation tolerance d.index v := hs
      rw [hT]
      refine ⟨d.index, d.row_lt.le, s, rfl, hbefore, rfl, rfl, rfl, rfl, _,
        s.log.extended_record _, ?_⟩
      simp [Step.factor?, Step.tableau?]

variable {A : Tableau Binary64 n n} {tolerance : Binary64} {log : Log Binary64}

end Tableau

end RowReduction
