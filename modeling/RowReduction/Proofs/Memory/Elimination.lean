import RowReduction.Elimination.InPlace
import RowReduction.Proofs.Memory.Logs

/-!
Reductions in memory and the reductions that they carry out. A reduction at work in memory follows
one that computes with tableaus: its array holds the working tableau, and its log shows the same
steps. It writes to no block that was there before it started, and to none that its log shows.
-/
namespace RowReduction

variable {m n : Nat} {base : Memory}

namespace Workspace

/-- A reduction in memory, started after `base`, is where a reduction of tableaus is. -/
structure Follows (base : Memory) (w : Workspace m n) (s : Progress Binary64 m n) : Prop where
  grown : base.Extends w.memory
  own : base.size ≤ w.address
  inside : w.address < w.memory.size
  entries : w.memory.read w.address = s.working.entries
  swaps : w.swaps = s.swaps
  pivots : w.pivots = s.pivots
  log : ShowsLog base w.memory w.log s.log.newestFirst?
  apart : ∀ r ∈ loggedArrays w.log, r.address ≠ w.address

variable {w : Workspace m n} {s : Progress Binary64 m n}

theorem follows_start (M : Tableau Binary64 m n) (recording : Bool) (μ : Memory) :
    Follows μ (start M recording μ) (.start M (.start recording)) where
  grown := (Memory.Extends.refl μ).allocate
  own := Nat.le_refl _
  inside := by
    show μ.size < (μ.allocate _).size
    rw [Memory.size_allocate]
    exact Nat.lt_succ_self _
  entries := Memory.read_allocate_self
  swaps := rfl
  pivots := rfl
  log := by cases recording <;> exact ⟨rfl, nofun⟩
  apart := by cases recording <;> exact nofun

/-- A step in memory is shown as a step of a log, whatever the array is that it shows. -/
def Displays (step : StoredArray → StoredStep)
    (step' : List (List Binary64) → RowStep Binary64) : Prop :=
  ∀ r, (step r).arrays = [r] ∧ ∀ f g, (step r).map f g = step' (f r)

namespace Follows

theorem working_eq (h : Follows base w s) : w.working = s.working := by
  have hload : w.array.load w.memory = ⟨[m, n], s.working.entries⟩ :=
    congrArg (NumericArray.mk [m, n]) h.entries
  rw [working, hload, Tableau.tableau_entries]

/-- Memory may grow meanwhile. -/
theorem mono (h : Follows base w s) {μ : Memory} (hμ : w.memory.Extends μ) :
    Follows base { w with memory := μ } s where
  grown := h.grown.trans hμ
  own := h.own
  inside := Nat.lt_of_lt_of_le h.inside hμ.size_le
  entries := (hμ.read_eq _ h.inside).trans h.entries
  swaps := h.swaps
  pivots := h.pivots
  log := h.log.mono hμ
  apart := h.apart

/-- What a copy of the array shows. -/
theorem rows_snapshot (h : Follows base w s) :
    StoredArray.rows (w.array.snapshot w.memory).2 (w.array.snapshot w.memory).1 =
      s.working.toLists := by
  have hload := StoredArray.load_snapshot w.array w.memory
  show (((w.array.snapshot w.memory).1.load (w.array.snapshot w.memory).2).tableau m n).toLists = _
  rw [hload, ← h.working_eq]
  rfl

/-- **Recording** makes a copy of the array as it is. -/
theorem record (h : Follows base w s) {step : StoredArray → StoredStep}
    {step' : List (List Binary64) → RowStep Binary64} (hstep : Displays step step') :
    Follows base (w.record step)
      { s with log := s.log.record fun _ => step' s.working.toLists } := by
  have hkept := StoredArray.extends_snapshot w.array w.memory
  have hnext := h.mono hkept
  obtain ⟨harrays, hmap⟩ := hstep (w.array.snapshot w.memory).1
  cases hw : w.log with
  | none =>
      have hoff : s.log.newestFirst? = none := by rw [← h.log.shown, hw]; rfl
      rw [Workspace.record, hw, Log.record, hoff]
      exact h
  | some entries =>
      have hlog := hnext.log.record ((hmap _ _).trans (congrArg step' h.rows_snapshot)) fun r hr =>
        List.mem_singleton.mp (harrays ▸ hr) ▸ StoredArray.IsCopy.snapshot w.array h.grown
      rw [Workspace.record, hw]
      refine { hnext with log := ?_, apart := fun r hr => ?_ }
      · rwa [show ({ w with memory := _ } : Workspace m n).log = some entries from hw] at hlog
      · rcases List.mem_append.mp hr with hnew | hold
        · -- the copy is the newest block
          rw [harrays, List.mem_singleton] at hnew
          rw [hnew]
          exact Nat.ne_of_gt h.inside
        · exact h.apart r (by rw [hw]; exact hold)

/-- A step that shows no array is recorded without a copy. -/
theorem note (h : Follows base w s) {step : StoredStep} {step' : RowStep Binary64}
    (harrays : step.arrays = []) (hmap : ∀ f g, step.map f g = step') :
    Follows base (w.note step) { s with log := s.log.record fun _ => step' } where
  grown := h.grown
  own := h.own
  inside := h.inside
  entries := h.entries
  swaps := h.swaps
  pivots := h.pivots
  log := h.log.record (hmap _ _) (by rw [harrays]; exact nofun)
  apart r hr := (mem_loggedArrays_cons hr).elim (by rw [harrays]; exact nofun) (h.apart r)

/-- **Overwriting** the array leaves the log as it was. -/
theorem fill (h : Follows base w s) (M : Tableau Binary64 m n) :
    Follows base { w with memory := w.array.fill M.entries w.memory } { s with working := M } where
  grown := h.grown.overwrite h.own
  own := h.own
  inside := by
    show _ < (w.memory.overwrite _ _).size
    rw [Memory.size_overwrite]
    exact h.inside
  entries := Memory.read_overwrite_self h.inside
  swaps := h.swaps
  pivots := h.pivots
  log := h.log.overwrite _ h.apart
  apart := h.apart

theorem become (h : Follows base w s) (M : Tableau Binary64 m n)
    {step : StoredArray → StoredStep} {step' : List (List Binary64) → RowStep Binary64}
    (hstep : Displays step step') : Follows base (w.become M step) (s.become M step') :=
  (h.fill M).record hstep

theorem bringUp (h : Follows base w s) (i p : Fin m) :
    Follows base (w.bringUp i p) (s.bringUp i p) := by
  rw [Workspace.bringUp, Progress.bringUp, h.working_eq]
  split
  · exact h
  · have hnext : Follows base (w.become _ (.swap i p)) (s.become _ (.swap i p)) :=
      h.become (s.working.swapRows i p) fun _ => ⟨rfl, fun _ _ => rfl⟩
    exact { hnext with swaps := congrArg (· + 1) h.swaps }

theorem takePivot (h : Follows base w s) (d : Diagonal m n) :
    Follows base (w.takePivot d) (s.takePivot d) :=
  { h with pivots := by rw [Workspace.takePivot, Progress.takePivot, h.working_eq, h.pivots] }

theorem eliminate (h : Follows base w s) (d : Diagonal m n) (factor : Binary64) (r : Fin m) :
    Follows base (w.eliminate d factor r) (s.eliminate d factor r) := by
  rw [Workspace.eliminate, h.working_eq]
  exact h.become _ fun _ => ⟨rfl, fun _ _ => rfl⟩

theorem normalize (h : Follows base w s) (d : Diagonal m n) :
    Follows base (w.normalize d) (s.normalize d) := by
  rw [Workspace.normalize, h.working_eq]
  exact h.become _ fun _ => ⟨rfl, fun _ _ => rfl⟩

theorem clearRow (h : Follows base w s) (d : Diagonal m n) (r : Fin m) :
    Follows base (w.clearRow d r) (s.clearRow d r) := by
  rw [Workspace.clearRow, h.working_eq]
  exact h.eliminate d _ r

theorem clearColumn (h : Follows base w s) (d : Diagonal m n) :
    Follows base (w.clearColumn d) (s.clearColumn d) := by
  have hrows (rows : List (Fin m)) : ∀ {w : Workspace m n} {s : Progress Binary64 m n},
      Follows base w s → Follows base (rows.foldl (Workspace.clearRow d) w)
        (rows.foldl (Progress.clearRow d) s) := by
    induction rows with
    | nil => exact fun h => h
    | cons r rest ih => exact fun h => ih (h.clearRow d r)
  exact hrows _ (h.normalize d)

theorem clearBelowRow (h : Follows base w s) (d : Diagonal m n) (pivot : Binary64) (r : Fin m) :
    Follows base (w.clearBelowRow d pivot r) (s.clearBelowRow d pivot r) := by
  rw [Workspace.clearBelowRow, Progress.clearBelowRow, h.working_eq]
  by_cases hzero : Scalar.isZero (s.working r d.column / pivot) = true
  · rw [if_pos hzero, if_pos hzero]
    exact h
  · rw [if_neg hzero, if_neg hzero]
    exact h.eliminate d _ r

theorem clearBelow (h : Follows base w s) (d : Diagonal m n) :
    Follows base (w.clearBelow d) (s.clearBelow d) := by
  have hrows (pivot : Binary64) (rows : List (Fin m)) :
      ∀ {w : Workspace m n} {s : Progress Binary64 m n}, Follows base w s →
        Follows base (rows.foldl (Workspace.clearBelowRow d pivot) w)
          (rows.foldl (Progress.clearBelowRow d pivot) s) := by
    induction rows with
    | nil => exact fun h => h
    | cons r rest ih => exact fun h => ih (h.clearBelowRow d pivot r)
  rw [Workspace.clearBelow, h.working_eq]
  exact hrows _ _ h

end Follows

/-! ## Sweeps -/

/-- A sweep in memory has ended as a sweep of tableaus has. -/
def Ends (base : Memory) (ending : Workspace m n × Option Stall) : Sweep Binary64 m n → Prop
  | .complete s => ∃ w, ending = (w, none) ∧ Follows base w s
  | .stalled column candidate s =>
    ∃ w, ending = (w, some ⟨column, candidate⟩) ∧ Follows base w s

section Sweep

variable {clear : Diagonal m n → Workspace m n → Workspace m n}
  {clear' : Diagonal m n → Progress Binary64 m n → Progress Binary64 m n}
  (hclear : ∀ d {w : Workspace m n} {s : Progress Binary64 m n}, Follows base w s →
    Follows base (clear d w) (clear' d s)) (tolerance : Binary64)

include hclear

theorem Follows.advance (h : Follows base w s) (d : Diagonal m n) :
    Ends base (w.advance clear tolerance d) (s.advance clear' tolerance d) := by
  rw [Workspace.advance, Progress.advance, h.working_eq]
  by_cases hlt : Scalar.lt (Scalar.abs (s.working (s.working.pivotRow d.row d.column) d.column))
      tolerance = true
  · rw [if_pos hlt, if_pos hlt]
    exact ⟨w, rfl, h⟩
  · rw [if_neg hlt, if_neg hlt]
    exact ⟨_, rfl, hclear d ((h.bringUp _ _).takePivot d)⟩

/-- **A sweep in memory follows a sweep of tableaus** from place to place. -/
theorem Follows.run (h : Follows base w s) (k : Nat) (hm : k ≤ m) (hn : k ≤ n) :
    Ends base (w.run clear tolerance k hm hn) (Sweep.run clear' tolerance s k hm hn) := by
  induction k with
  | zero => exact ⟨w, rfl, h⟩
  | succ k ih =>
      have hbefore := ih (Nat.le_of_succ_le hm) (Nat.le_of_succ_le hn)
      rw [Workspace.run, Sweep.run]
      cases hsweep : Sweep.run clear' tolerance s k (Nat.le_of_succ_le hm)
          (Nat.le_of_succ_le hn) with
      | stalled column candidate t =>
          rw [hsweep] at hbefore
          obtain ⟨w', hrun, hfollows⟩ := hbefore
          rw [hrun]
          exact ⟨w', rfl, hfollows⟩
      | complete t =>
          rw [hsweep] at hbefore
          obtain ⟨w', hrun, hfollows⟩ := hbefore
          rw [hrun]
          exact hfollows.advance hclear tolerance ⟨k, hm, hn⟩

end Sweep

/-! ## Endings -/

theorem Follows.sign_eq (h : Follows base w s) : w.sign = s.sign := by
  rw [sign, Progress.sign, h.swaps]

theorem Follows.signedProduct_eq (h : Follows base w s) : w.signedProduct = s.signedProduct := by
  rw [signedProduct, Progress.signedProduct, h.working_eq, h.swaps]

end Workspace

/-- What a triangular reduction has left in memory is what a reduction of tableaus has found. -/
structure StoredTriangulation.Shows (base μ : Memory) (x : StoredTriangulation)
    (t : Triangulation Binary64 m n) : Prop where
  value : x.value = t.value
  sign : x.sign = t.sign
  swaps : x.swaps = t.swaps
  triangular : StoredArray.rows μ x.triangular = t.triangular.toLists
  copy : x.triangular.IsCopy base μ
  pivots : x.pivots = t.pivots
  singularColumn : x.singularColumn = t.singularColumn
  log : ShowsLog base μ x.steps? t.log.steps?

namespace Workspace

variable {w : Workspace m n} {s : Progress Binary64 m n}

theorem Follows.triangulation (h : Follows base w s) (value : Binary64)
    (singularColumn : Option Nat) :
    base.Extends (w.triangulation value singularColumn).2 ∧
      (w.triangulation value singularColumn).1.Shows base (w.triangulation value singularColumn).2
        ⟨value, s.sign, s.swaps, s.working, s.pivots, singularColumn, s.log⟩ := by
  have hkept := StoredArray.extends_snapshot w.array w.memory
  exact ⟨h.grown.trans hkept, rfl, h.sign_eq, h.swaps, h.rows_snapshot,
    StoredArray.IsCopy.snapshot w.array h.grown, h.pivots, rfl, (h.log.mono hkept).reverse⟩

end Workspace

/-- **A triangular reduction in memory** finds what a reduction of tableaus finds, and changes nothing
that was there before. -/
theorem StoredArray.triangulate_shows (A : StoredArray) (m n : Nat) (tolerance : Binary64)
    (recording : Bool) (μ : Memory) :
    μ.Extends (A.triangulate m n tolerance recording μ).2 ∧
      (A.triangulate m n tolerance recording μ).1.Shows μ
        (A.triangulate m n tolerance recording μ).2
        ((A.tableau μ m n).triangulate tolerance (.start recording)) := by
  have hsweep := (Workspace.follows_start (A.tableau μ m n) recording μ).run
    (fun d _ _ h => h.clearBelow d) tolerance (min m n) (Nat.min_le_left m n) (Nat.min_le_right m n)
  rw [triangulate, Tableau.triangulate, Tableau.triangularSweep]
  cases hending : Sweep.run Progress.clearBelow tolerance
      (.start (A.tableau μ m n) (.start recording)) (min m n) (Nat.min_le_left m n)
      (Nat.min_le_right m n) with
  | stalled column candidate s =>
      rw [hending] at hsweep
      obtain ⟨w, hrun, hfollows⟩ := hsweep
      rw [hrun]
      exact (hfollows.record fun _ => ⟨rfl, fun _ _ => rfl⟩).triangulation .zero (some column)
  | complete s =>
      rw [hending] at hsweep
      obtain ⟨w, hrun, hfollows⟩ := hsweep
      have hdisplays : Workspace.Displays (.triangular · w.sign) (.triangular · s.sign) :=
        fun _ => ⟨rfl, fun _ _ => by rw [hfollows.sign_eq]; rfl⟩
      rw [hrun]
      dsimp only
      rw [hfollows.signedProduct_eq]
      exact ((hfollows.record hdisplays).note rfl fun _ _ => rfl).triangulation _ none

/-- What a Gauss-Jordan reduction has left in memory is what a reduction of tableaus has found. The
solution is the only array among it that may be written to, and the log does not show its block. -/
structure StoredReduction.Shows (base μ : Memory) (x : StoredReduction) (r : Reduction Binary64 n) :
    Prop where
  solution : x.solution.IsOwn base μ r.solution
  reduced : StoredArray.rows μ x.reduced = r.reduced.toLists
  copy : x.reduced.IsCopy base μ
  swaps : x.swaps = r.swaps
  pivots : x.pivots = r.pivots
  log : ShowsLog base μ x.steps? r.log.steps?
  apart : ∀ s ∈ loggedArrays x.steps?, s.address ≠ x.solution.address

namespace Workspace

variable {w : Workspace n (n + 1)} {s : Progress Binary64 n (n + 1)}

/-- Recording the solution makes two copies, and they are the newest blocks. -/
theorem Follows.recordFinal (h : Follows base w s) {solution : StoredArray} {x : Vector Binary64 n}
    (hx : solution.load w.memory = ⟨[n], x.toList⟩) :
    Follows base (w.recordFinal solution)
        { s with log := s.log.record fun _ => .final x.toList (some s.working.toLists) } ∧
      w.memory.Extends (w.recordFinal solution).memory ∧
      ∀ r ∈ loggedArrays (w.recordFinal solution).log,
        r ∈ loggedArrays w.log ∨ w.memory.size ≤ r.address := by
  have hfirst := StoredArray.extends_snapshot solution w.memory
  have hsecond := StoredArray.extends_snapshot w.array (solution.snapshot w.memory).2
  have hcopy := StoredArray.IsCopy.snapshot solution (.refl w.memory)
  have hcopy' := StoredArray.IsCopy.snapshot w.array hfirst
  have hnext := h.mono (hfirst.trans hsecond)
  cases hw : w.log with
  | none =>
      have hoff : s.log.newestFirst? = none := by rw [← h.log.shown, hw]; rfl
      rw [Workspace.recordFinal, hw, Log.record, hoff]
      exact ⟨h, .refl _, fun r hr => .inl (hw ▸ hr)⟩
  | some entries =>
      -- the two copies, and what they show once both are made
      let μ := (w.array.snapshot (solution.snapshot w.memory).2).2
      let step : StoredStep := .final (solution.snapshot w.memory).1
        (some (w.array.snapshot (solution.snapshot w.memory).2).1)
      have hcopies : ∀ r ∈ step.arrays, r.IsCopy w.memory μ := by
        intro r hr
        rcases List.mem_cons.mp hr with rfl | hr
        · exact hcopy.mono hsecond
        · exact List.mem_singleton.mp hr ▸ hcopy'
      have hload := (StoredArray.load_of_extends hsecond hcopy.inside).trans
        ((solution.load_snapshot w.memory).trans hx)
      have hshown : step.map (StoredArray.rows μ) (StoredArray.numbers μ) =
          .final x.toList (some s.working.toLists) :=
        congrArg₂ (fun a t => Step.final a (some t)) (congrArg NumericArray.entries hload)
          (h.mono hfirst).rows_snapshot
      have hlog := hnext.log.record hshown fun r hr => (hcopies r hr).of_extends h.grown
      have hlogged : ∀ r ∈ loggedArrays (w.log.map (step :: ·)),
          r ∈ loggedArrays w.log ∨ w.memory.size ≤ r.address := fun r hr =>
        (mem_loggedArrays_cons hr).symm.imp_right fun hnew => (hcopies r hnew).fresh
      rw [hw] at hlogged
      rw [Workspace.recordFinal, hw]
      refine ⟨{ hnext with log := ?_, apart := fun r hr => ?_ }, hfirst.trans hsecond, hlogged⟩
      · rwa [show ({ w with memory := μ } : Workspace n (n + 1)).log = some entries from hw] at hlog
      · rcases hlogged r hr with hold | hnew
        · exact h.apart r (by rw [hw]; exact hold)
        · exact Nat.ne_of_gt (Nat.lt_of_lt_of_le h.inside hnew)

theorem Follows.reduction (h : Follows base w s) :
    base.Extends w.reduction.2 ∧ w.reduction.1.Shows base w.reduction.2 s.reduction := by
  have hgrown := NumericArray.extends_store ⟨[n], (w.working.column (Fin.last n)).toList⟩ w.memory
  have hload : w.takeSolution.1.load w.takeSolution.2.memory =
      ⟨[n], (s.working.column (Fin.last n)).toList⟩ := by
    rw [← h.working_eq]
    exact NumericArray.load_store _ _
  have hsolution : Follows base w.takeSolution.2 s := h.mono hgrown
  obtain ⟨hfinal, hrecorded, hlogged⟩ := hsolution.recordFinal hload
  have hkept := StoredArray.extends_snapshot (w.takeSolution.2.recordFinal w.takeSolution.1).array
    (w.takeSolution.2.recordFinal w.takeSolution.1).memory
  have hlast := hrecorded.trans hkept
  have hinside : w.memory.size < w.takeSolution.2.memory.size := by
    show _ < (w.memory.allocate _).size
    rw [Memory.size_allocate]
    exact Nat.lt_succ_self _
  refine ⟨hfinal.grown.trans hkept, ⟨(StoredArray.load_of_extends hlast hinside).trans hload, rfl,
    h.grown.size_le, Nat.lt_of_lt_of_le hinside hlast.size_le⟩, hfinal.rows_snapshot,
    StoredArray.IsCopy.snapshot _ hfinal.grown, hfinal.swaps, hfinal.pivots,
    (hfinal.log.mono hkept).reverse, fun r hr => ?_⟩
  -- what was recorded before is older than the solution, and the final step is newer
  rcases hlogged r (mem_loggedArrays_reverse hr) with hold | hnew
  · exact Nat.ne_of_lt (h.log.copies r hold).inside
  · exact Nat.ne_of_gt (Nat.lt_of_lt_of_le hinside hnew)

end Workspace

end RowReduction
