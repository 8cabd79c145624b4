import RowReduction.Elimination.GaussJordan
import RowReduction.Elimination.Triangular
import RowReduction.Proofs.Elimination.SideBySide

/-!
What a log cannot change, and how it changes itself. No step of a reduction reads the log that it
writes, so forgetting the log before a step and forgetting it afterwards come to the same, and a
reduction finds the same numbers whether it is recorded or not. Every step appends to the log or
leaves it alone.
-/
namespace RowReduction

variable {α : Type} {m n : Nat}

/-! ## Forgetting the log -/

namespace Progress

/-- The same progress with nothing recorded. -/
def unlogged (s : Progress α m n) : Progress α m n := { s with log := .off }

/-- A clearing rule does not read the log. -/
def IgnoresLog (clear : Diagonal m n → Progress α m n → Progress α m n) : Prop :=
  ∀ d s, clear d s.unlogged = (clear d s).unlogged

theorem bringUp_unlogged (s : Progress α m n) (i p : Fin m) :
    s.unlogged.bringUp i p = (s.bringUp i p).unlogged := by
  simp only [bringUp]
  split <;> rfl

variable [Scalar α]

theorem candidate_unlogged (s : Progress α m n) (d : Diagonal m n) :
    s.unlogged.candidate d = s.candidate d := rfl

theorem pivoted_unlogged (s : Progress α m n) (d : Diagonal m n) :
    s.unlogged.pivoted d = (s.pivoted d).unlogged :=
  congrArg (takePivot · d) (s.bringUp_unlogged d.row (s.choice d))

theorem clearBelowRow_unlogged (d : Diagonal m n) (pivot : α) (s : Progress α m n) (r : Fin m) :
    clearBelowRow d pivot s.unlogged r = (clearBelowRow d pivot s r).unlogged :=
  (apply_ite unlogged (Scalar.isZero (s.working r d.column / pivot) = true) s
    (s.eliminate d (s.working r d.column / pivot) r)).symm

theorem clearBelow_ignoresLog : IgnoresLog (α := α) (m := m) (n := n) clearBelow :=
  fun d s => List.foldl_hom unlogged (clearBelowRow_unlogged d (s.working d.row d.column))

theorem clearRow_unlogged (d : Diagonal m n) (s : Progress α m n) (r : Fin m) :
    clearRow d s.unlogged r = (clearRow d s r).unlogged := rfl

theorem clearColumn_ignoresLog : IgnoresLog (α := α) (m := m) (n := n) clearColumn := by
  intro d s
  have hnormalize : s.unlogged.normalize d = (s.normalize d).unlogged := rfl
  rw [clearColumn, clearColumn, hnormalize]
  exact List.foldl_hom unlogged (clearRow_unlogged d)

end Progress

namespace Sweep

/-- The same ending with nothing recorded. -/
def unlogged : Sweep α m n → Sweep α m n
  | complete s => complete s.unlogged
  | stalled column candidate s => stalled column candidate s.unlogged

variable [Scalar α] {clear : Diagonal m n → Progress α m n → Progress α m n}

/-- **A sweep does not read the log.** -/
theorem run_unlogged (hclear : Progress.IgnoresLog clear) (tolerance : α) (s : Progress α m n)
    (k : Nat) (hm : k ≤ m) (hn : k ≤ n) :
    run clear tolerance s.unlogged k hm hn = (run clear tolerance s k hm hn).unlogged := by
  have hview : Alike (fun _ s t => t = s.unlogged) k (run clear tolerance s k hm hn)
      (run clear tolerance s.unlogged k hm hn) := by
    apply run_view Progress.unlogged
    · intro k hm hn _ s
      exact s.candidate_unlogged ⟨k, hm, hn⟩
    · intro k hm hn _ s
      rw [Progress.pivoted_unlogged, hclear]
  generalize run clear tolerance s.unlogged k hm hn = y at hview ⊢
  generalize run clear tolerance s k hm hn = x at hview ⊢
  cases hview with
  | complete h =>
      rw [h]
      rfl
  | stalled _ h =>
      rw [h]
      rfl

end Sweep

/-- A reduction that ended either way, with nothing recorded. -/
def unloggedEnding : Except (Breakdown α) (Reduction α n) → Except (Breakdown α) (Reduction α n)
  | .ok r => .ok { r with log := .off }
  | .error f => .error { f with log := .off }

/-- The log of a reduction, completed or broken down. -/
def endingLog : Except (Breakdown α) (Reduction α n) → Log α
  | .ok r => r.log
  | .error f => f.log

namespace Tableau

variable [Scalar α] (M : Tableau α m n) (A : Tableau α n n) (b : Vector α n) (tolerance : α)
  (log : Log α)

theorem triangularSweep_unlogged :
    M.triangularSweep tolerance .off = (M.triangularSweep tolerance log).unlogged :=
  Sweep.run_unlogged Progress.clearBelow_ignoresLog tolerance (.start M log) _ _ _

/-- **A triangular reduction finds the same with and without a log.** -/
theorem triangulate_unlogged :
    M.triangulate tolerance .off = { M.triangulate tolerance log with log := .off } := by
  rw [triangulate, triangulate, M.triangularSweep_unlogged tolerance log]
  cases M.triangularSweep tolerance log with
  | complete s => rfl
  | stalled c v s => rfl

theorem triangulate_value_unlogged :
    (M.triangulate tolerance log).value = (M.triangulate tolerance .off).value := by
  rw [M.triangulate_unlogged tolerance log]

theorem triangulate_singularColumn_unlogged :
    (M.triangulate tolerance log).singularColumn =
      (M.triangulate tolerance .off).singularColumn := by
  rw [M.triangulate_unlogged tolerance log]

/-- Where a triangular reduction stalls does not depend on what is recorded. -/
theorem triangulate_singularColumn_eq (log' : Log α) :
    (M.triangulate tolerance log).singularColumn =
      (M.triangulate tolerance log').singularColumn :=
  (M.triangulate_singularColumn_unlogged tolerance log).trans
    (M.triangulate_singularColumn_unlogged tolerance log').symm

theorem gaussJordanSweep_unlogged :
    A.gaussJordanSweep b tolerance .off = (A.gaussJordanSweep b tolerance log).unlogged :=
  Sweep.run_unlogged Progress.clearColumn_ignoresLog tolerance
    (.start (A.augment b) (log.record fun _ => .initial (A.augment b).toLists)) _ _ _

/-- **A Gauss-Jordan reduction ends the same with and without a log.** -/
theorem gaussJordan_unlogged :
    A.gaussJordan b tolerance .off = unloggedEnding (A.gaussJordan b tolerance log) := by
  rw [gaussJordan, gaussJordan, A.gaussJordanSweep_unlogged b tolerance log]
  cases A.gaussJordanSweep b tolerance log with
  | complete s => rfl
  | stalled c v s => rfl

end Tableau

/-! ## Appending to the log -/

namespace Log

/-- `later` is the log with the steps `new` after its own. A log that records nothing stays so. -/
def Extended (log : Log α) (new : List (RowStep α)) (later : Log α) : Prop :=
  later.steps? = log.steps?.map (· ++ new)

theorem Extended.refl (log : Log α) : log.Extended [] log := by simp [Extended]

theorem Extended.trans {a b c : Log α} {first second : List (RowStep α)}
    (hab : a.Extended first b) (hbc : b.Extended second c) : a.Extended (first ++ second) c := by
  rw [Extended, hbc, hab, Option.map_map]
  congr 1
  funext old
  exact List.append_assoc old first second

theorem extended_record (log : Log α) (step : Unit → RowStep α) :
    log.Extended [step ()] (log.record step) := log.steps?_record step

/-- An empty log is extended to the new steps. -/
theorem Extended.steps?_eq_some {new : List (RowStep α)} {later : Log α}
    (h : empty.Extended new later) : later.steps? = some new := h

/-- A log with steps to show is extended to these and the new ones. -/
theorem Extended.steps_eq {log later : Log α} {new : List (RowStep α)}
    (h : log.Extended new later) (hlog : log.steps? = some log.steps) :
    later.steps = log.steps ++ new := by
  rw [steps, h, hlog]
  rfl

/-- A later state of a log: the earlier steps with more after them, or still no steps at all. -/
def Grows (log later : Log α) : Prop :=
  ∃ new : List (RowStep α), later.steps? = log.steps?.map (· ++ new)

theorem Grows.refl (log : Log α) : log.Grows log := ⟨[], Extended.refl log⟩

theorem Grows.trans {a b c : Log α} (hab : a.Grows b) (hbc : b.Grows c) : a.Grows c := by
  obtain ⟨first, hb⟩ := hab
  obtain ⟨second, hc⟩ := hbc
  exact ⟨first ++ second, Extended.trans hb hc⟩

theorem grows_record (log : Log α) (step : Unit → RowStep α) : log.Grows (log.record step) :=
  ⟨[step ()], log.extended_record step⟩

/-- What an empty log grows into has steps to show. -/
theorem Grows.steps?_eq_some {later : Log α} (h : empty.Grows later) :
    later.steps? = some later.steps := by
  obtain ⟨new, hnew⟩ := h
  rw [steps, hnew]
  rfl

end Log

namespace Progress

/-- A clearing rule appends to the log or leaves it alone. -/
def AppendsToLog (clear : Diagonal m n → Progress α m n → Progress α m n) : Prop :=
  ∀ (d : Diagonal m n) (s : Progress α m n), s.log.Grows (clear d s).log

theorem foldl_grows {f : Progress α m n → Fin m → Progress α m n}
    (hf : ∀ (s : Progress α m n) (r : Fin m), s.log.Grows (f s r).log) (rows : List (Fin m))
    (s : Progress α m n) : s.log.Grows (rows.foldl f s).log := by
  induction rows generalizing s with
  | nil => exact .refl _
  | cons r rest ih => exact (hf s r).trans (ih (f s r))

variable [Scalar α]

theorem pivoted_grows (s : Progress α m n) (d : Diagonal m n) :
    s.log.Grows (s.pivoted d).log := by
  simp only [pivoted, takePivot, bringUp]
  split
  · exact .refl _
  · exact Log.grows_record _ _

theorem clearBelow_appendsToLog : AppendsToLog (α := α) (m := m) (n := n) clearBelow := by
  intro d s
  apply foldl_grows
  intro t r
  simp only [clearBelowRow]
  split
  · exact .refl _
  · exact Log.grows_record _ _

theorem clearColumn_appendsToLog : AppendsToLog (α := α) (m := m) (n := n) clearColumn := by
  intro d s
  have hnormalize : s.log.Grows (s.normalize d).log := Log.grows_record _ _
  exact hnormalize.trans (foldl_grows (fun t r => Log.grows_record _ _) _ _)

end Progress

namespace Sweep

/-- The state in which a sweep ends, complete or not. -/
def state : Sweep α m n → Progress α m n
  | complete s => s
  | stalled _ _ s => s

/-- **A sweep appends to the log.** -/
theorem run_grows [Scalar α] {clear : Diagonal m n → Progress α m n → Progress α m n}
    (hclear : Progress.AppendsToLog clear) (tolerance : α) (s : Progress α m n) (k : Nat)
    (hm : k ≤ m) (hn : k ≤ n) : s.log.Grows (run clear tolerance s k hm hn).state.log := by
  have hcomplete (k : Nat) (hm : k ≤ m) (hn : k ≤ n) {t : Progress α m n}
      (h : run clear tolerance s k hm hn = complete t) : s.log.Grows t.log :=
    run_complete (I := fun _ t => s.log.Grows t.log) (.refl s.log)
      (fun d t ht _ => (ht.trans (t.pivoted_grows d)).trans (hclear d _)) k hm hn h
  cases hrun : run clear tolerance s k hm hn with
  | complete t => exact hcomplete k hm hn hrun
  | stalled c v t =>
      -- the state of a stalled sweep is that of the complete sweep up to the refused place
      obtain ⟨d, _, _, _, hbefore⟩ := run_stalled k hm hn hrun
      exact hcomplete _ _ _ hbefore

end Sweep

/-- **A triangular reduction appends to the log.** -/
theorem Tableau.triangulate_grows [Scalar α] (M : Tableau α m n) (tolerance : α) (log : Log α) :
    log.Grows (M.triangulate tolerance log).log := by
  have hsweep : log.Grows (M.triangularSweep tolerance log).state.log :=
    Sweep.run_grows Progress.clearBelow_appendsToLog tolerance (.start M log) _ _ _
  rw [triangulate]
  cases hrun : M.triangularSweep tolerance log with
  | complete s =>
      rw [hrun] at hsweep
      exact (hsweep.trans (Log.grows_record _ _)).trans (Log.grows_record _ _)
  | stalled c v s =>
      rw [hrun] at hsweep
      exact hsweep.trans (Log.grows_record _ _)

/-- **A Gauss-Jordan reduction appends to the log**, also when it breaks down. -/
theorem Tableau.gaussJordan_grows [Scalar α] (A : Tableau α n n) (b : Vector α n) (tolerance : α)
    (log : Log α) : log.Grows (endingLog (A.gaussJordan b tolerance log)) := by
  have hsweep : log.Grows (A.gaussJordanSweep b tolerance log).state.log :=
    (Log.grows_record log _).trans
      (Sweep.run_grows Progress.clearColumn_appendsToLog tolerance (.start (A.augment b) _) _ _ _)
  rw [gaussJordan]
  cases hrun : A.gaussJordanSweep b tolerance log with
  | complete s =>
      rw [hrun] at hsweep
      have hfinal : s.log.Grows s.reduction.log := Log.grows_record _ _
      exact hsweep.trans hfinal
  | stalled c v s =>
      rw [hrun] at hsweep
      exact hsweep

end RowReduction
