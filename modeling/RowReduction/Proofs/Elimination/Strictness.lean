import Mathlib
import RowReduction.Proofs.Binary64.Order
import RowReduction.Proofs.Elimination.Clearing
import RowReduction.Proofs.Elimination.Recording
import RowReduction.Proofs.Outcome

/-!
One reduction with two tolerances. The tolerance decides only whether a place is passed, and what is
below the lower of two tolerances is below the higher one. So both sweeps do the same as long as the
one with the higher tolerance goes on; where that one stalls, the other may go on, and it keeps what
was done and recorded so far.
-/
namespace RowReduction

variable {α : Type} {m n : Nat}

namespace Sweep

/-- What may become of a sweep that was in the state `t` when `j` places were cleared: it gets at
least as far, and its log grows. -/
def Continues (j : Nat) (t : Progress α m n) : Sweep α m n → Prop
  | complete u => t.log.Grows u.log
  | stalled c _ u => j ≤ c ∧ t.log.Grows u.log

section OneTolerance

variable [Scalar α] {clear : Diagonal m n → Progress α m n → Progress α m n} {tolerance : α}
  {s t : Progress α m n}

/-- **A sweep goes on from where it was.** -/
theorem run_continues (hclear : Progress.AppendsToLog clear) {j : Nat} {hm : j ≤ m} {hn : j ≤ n}
    (hj : run clear tolerance s j hm hn = complete t) {k : Nat} (hjk : j ≤ k) (hm' : k ≤ m)
    (hn' : k ≤ n) : Continues j t (run clear tolerance s k hm' hn') := by
  induction k, hjk using Nat.le_induction with
  | base =>
      rw [hj]
      exact .refl t.log
  | succ k hjk ih =>
      have hbefore := ih (Nat.le_of_succ_le hm') (Nat.le_of_succ_le hn')
      rw [run]
      generalize run clear tolerance s k _ _ = x at hbefore ⊢
      cases x with
      | stalled c v u => exact hbefore
      | complete u =>
          rw [andThen_complete, Progress.advance_eq]
          split
          · exact ⟨hjk, hbefore⟩
          · exact (hbefore.trans (u.pivoted_grows _)).trans (hclear _ _)

end OneTolerance

section TwoTolerances

variable [Scalar α] {clear : Diagonal m n → Progress α m n → Progress α m n} {lower higher : α}
  {s t : Progress α m n}

/-- **A complete sweep** is the same sweep with every lower tolerance. -/
theorem run_complete_of_lower
    (hle : ∀ x : α, Scalar.lt x lower = true → Scalar.lt x higher = true) :
    ∀ (k : Nat) (hm : k ≤ m) (hn : k ≤ n) {t : Progress α m n},
      run clear higher s k hm hn = complete t → run clear lower s k hm hn = complete t := by
  intro k
  induction k with
  | zero =>
      intro hm hn t h
      exact h
  | succ k ih =>
      intro hm hn t h
      obtain ⟨u, hpasses, rfl⟩ := passes_of_run_succ h
      -- what the higher tolerance accepts, the lower one does not refuse
      have haccepted : Scalar.lt (u.candidate ⟨k, hm, hn⟩) lower = false := by
        cases hlt : Scalar.lt (u.candidate ⟨k, hm, hn⟩) lower with
        | false => rfl
        | true => exact absurd (hle _ hlt) (Bool.eq_false_iff.mp hpasses.accepted)
      have hlower : Passes clear lower s ⟨k, hm, hn⟩ u := ⟨ih _ _ hpasses.reached, haccepted⟩
      exact hlower.run_succ

/-- **A stalled sweep** is continued by the sweep with a lower tolerance. -/
theorem run_continues_of_lower (hclear : Progress.AppendsToLog clear)
    (hle : ∀ x : α, Scalar.lt x lower = true → Scalar.lt x higher = true) {k : Nat} {hm : k ≤ m}
    {hn : k ≤ n} {c : Nat} {v : α} (h : run clear higher s k hm hn = stalled c v t) :
    Continues c t (run clear lower s k hm hn) := by
  have hbound : c < k := column_lt_of_run_stalled k hm hn h
  obtain ⟨d, rfl, _, _, hbefore⟩ := run_stalled k hm hn h
  exact run_continues hclear (run_complete_of_lower hle _ _ _ hbefore) hbound.le hm hn

end TwoTolerances

end Sweep

namespace Tableau

section Reductions

variable [Scalar α] {lower higher : α}

/-- **Gauss-Jordan reduction**: an answer stands, and a breakdown is put off or comes in the same
column. -/
theorem gaussJordan_of_lower
    (hle : ∀ x : α, Scalar.lt x lower = true → Scalar.lt x higher = true) (A : Tableau α n n)
    (b : Vector α n) (log : Log α) :
    (∀ r, A.gaussJordan b higher log = .ok r → A.gaussJordan b lower log = .ok r) ∧
    (∀ f, A.gaussJordan b higher log = .error f →
      f.log.Grows (endingLog (A.gaussJordan b lower log)) ∧
        ∀ g, A.gaussJordan b lower log = .error g → f.column ≤ g.column) := by
  constructor
  · intro r hr
    obtain ⟨s, hsweep, rfl⟩ := gaussJordan_of_ok hr
    have hlower : A.gaussJordanSweep b lower log = .complete s :=
      Sweep.run_complete_of_lower hle _ _ _ hsweep
    rw [gaussJordan, hlower]
  · intro f hf
    rw [gaussJordan] at hf
    cases hsweep : A.gaussJordanSweep b higher log with
    | complete s =>
        rw [hsweep] at hf
        cases hf
    | stalled c v s =>
        rw [hsweep] at hf
        cases hf
        have hlower : Sweep.Continues c s (A.gaussJordanSweep b lower log) :=
          Sweep.run_continues_of_lower Progress.clearColumn_appendsToLog hle hsweep
        rw [gaussJordan]
        generalize A.gaussJordanSweep b lower log = x at hlower ⊢
        cases x with
        | complete t =>
            have hfinal : t.log.Grows t.reduction.log := Log.grows_record _ _
            refine ⟨hlower.trans hfinal, fun g hg => ?_⟩
            cases hg
        | stalled c' v' t =>
            refine ⟨hlower.2, fun g hg => ?_⟩
            cases hg
            exact hlower.1

/-- **Triangular reduction**: a result without a singular column stands, and a singular column is
the same or a later one. -/
theorem triangulate_of_lower
    (hle : ∀ x : α, Scalar.lt x lower = true → Scalar.lt x higher = true) (M : Tableau α m n)
    (log : Log α) :
    let T := M.triangulate higher log
    let T' := M.triangulate lower log
    (T.singularColumn = none → T' = T) ∧
    (∀ c, T.singularColumn = some c →
      (∃ (before : Log α) (candidate : α), before.Grows T'.log ∧
        T.log = before.record fun _ => .singularPivot c candidate higher T.triangular.toLists) ∧
      ∀ c', T'.singularColumn = some c' → c ≤ c') := by
  intro T T'
  constructor
  · intro hnone
    obtain ⟨s, hsweep, hs⟩ := triangulate_of_none hnone
    have hlower : M.triangularSweep lower log = .complete s :=
      Sweep.run_complete_of_lower hle _ _ _ hsweep
    have hT' : T' = s.triangulation := by
      simp only [T', triangulate, hlower]
    exact hT'.trans hs.symm
  · intro c hsome
    obtain ⟨v, s, hsweep, hs⟩ := triangulate_of_some hsome
    have hlower : Sweep.Continues c s (M.triangularSweep lower log) :=
      Sweep.run_continues_of_lower Progress.clearBelow_appendsToLog hle hsweep
    have hT : T = s.singularTriangulation higher c v := hs
    have hgrows : s.log.Grows T'.log ∧ ∀ c', T'.singularColumn = some c' → c ≤ c' := by
      simp only [T', triangulate]
      generalize M.triangularSweep lower log = x at hlower ⊢
      cases x with
      | complete t =>
          refine ⟨(hlower.trans (Log.grows_record _ _)).trans (Log.grows_record _ _), ?_⟩
          intro c' hc'
          cases hc'
      | stalled b w t =>
          refine ⟨hlower.2.trans (Log.grows_record _ _), fun c' hc' => ?_⟩
          cases hc'
          exact hlower.1
    refine ⟨⟨s.log, v, hgrows.1, ?_⟩, hgrows.2⟩
    rw [hT]
    rfl

end Reductions

/-- **A lower tolerance only ever admits more.** When `lower` is at most `higher`, an answer that a
reduction finds with the higher tolerance is the answer that it finds with the lower one, with the
same log. Where it breaks down with the higher tolerance, the reduction with the lower one has
recorded the same so far, and goes on to the end or breaks down in that column or a later one. -/
theorem lower_tolerance_admits_more {lower higher : Binary64} (hnumber : higher.isNaN = false)
    (hle : higher.lt lower = false) :
    (∀ {n : Nat} (A : Tableau Binary64 n n) (b : Vector Binary64 n) (log : Log Binary64),
      (∀ r, A.gaussJordan b higher log = .ok r → A.gaussJordan b lower log = .ok r) ∧
      (∀ f, A.gaussJordan b higher log = .error f →
        f.log.Grows (endingLog (A.gaussJordan b lower log)) ∧
          ∀ g, A.gaussJordan b lower log = .error g → f.column ≤ g.column)) ∧
    (∀ {m n : Nat} (M : Tableau Binary64 m n) (log : Log Binary64),
      let T := M.triangulate higher log
      let T' := M.triangulate lower log
      (T.singularColumn = none → T' = T) ∧
      (∀ c, T.singularColumn = some c →
        (∃ (before : Log Binary64) (candidate : Binary64), before.Grows T'.log ∧
          T.log = before.record fun _ => .singularPivot c candidate higher T.triangular.toLists) ∧
        ∀ c', T'.singularColumn = some c' → c ≤ c')) := by
  have hbelow (x : Binary64) (h : x.lt lower = true) : x.lt higher = true :=
    Binary64.lt_of_lt_of_not_lt h hnumber hle
  exact ⟨fun A b log => gaussJordan_of_lower hbelow A b log,
    fun M log => triangulate_of_lower hbelow M log⟩

/-- Two equations whose second pivot is `2⁻³⁰`. -/
def closeEquations : Tableau Binary64 2 2 :=
  ⟨#v[#v[.ofInt 2, .one], #v[.ofInt 2, .ofRatio false (2 ^ 30 + 1) (2 ^ 30)]]⟩

/-- A tolerance below the second pivot. -/
def closeTolerance : Binary64 := .ofRatio false 1 (2 ^ 40)

theorem lower_tolerance_admits_more_two :
    Binary64.one.isNaN = false ∧ Binary64.one.lt closeTolerance = false ∧
      (∃ f r, closeEquations.gaussJordan #v[.one, .zero] .one .empty = .error f ∧ f.column = 1 ∧
        closeEquations.gaussJordan #v[.one, .zero] closeTolerance .empty = .ok r ∧
        f.log.Grows r.log) ∧
      (closeEquations.triangulate closeTolerance .empty).singularColumn = none ∧
      ∃ (before : Log Binary64) (candidate : Binary64),
        before.Grows (closeEquations.triangulate closeTolerance .empty).log ∧
        (closeEquations.triangulate .one .empty).log = before.record fun _ =>
          .singularPivot (1 : Nat) candidate .one
            (closeEquations.triangulate .one .empty).triangular.toLists := by
  have hnumber : Binary64.one.isNaN = false := rfl
  have hle : Binary64.one.lt closeTolerance = false := by decide +kernel
  have hstalled : (match closeEquations.gaussJordan #v[.one, .zero] .one .empty with
      | .ok _ => none
      | .error f => some f.column) = some 1 := by decide +kernel
  have hrun : (closeEquations.gaussJordan #v[.one, .zero] closeTolerance .empty).toOption.map
      Reduction.swaps = some 0 := by decide +kernel
  have hsome : (closeEquations.triangulate .one .empty).singularColumn = some 1 := by
    decide +kernel
  have hnone : (closeEquations.triangulate closeTolerance .empty).singularColumn = none := by
    decide +kernel
  obtain ⟨hgauss, htriangular⟩ := lower_tolerance_admits_more hnumber hle
  refine ⟨hnumber, hle, ?_, hnone, ((htriangular closeEquations .empty).2 1 hsome).1⟩
  obtain ⟨r, hr, _⟩ := eq_ok_of_toOption_map_eq_some hrun
  cases hf : closeEquations.gaussJordan #v[.one, .zero] .one .empty with
  | ok x =>
      rw [hf] at hstalled
      exact nomatch hstalled
  | error f =>
      rw [hf] at hstalled
      obtain ⟨hgrows, _⟩ := (hgauss closeEquations #v[.one, .zero] .empty).2 f hf
      rw [hr] at hgrows
      exact ⟨f, r, rfl, Option.some.inj hstalled, hr, hgrows⟩

end Tableau

end RowReduction
