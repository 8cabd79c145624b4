import RowReduction.Proofs.Elimination.GaussJordanLog
import RowReduction.Proofs.Elimination.Pivots
import RowReduction.Proofs.Outcome

/-!
The unit columns of a Gauss-Jordan reduction, with rounding. A finite pivot over itself is exactly
one, and a finite factor minus itself times one is exactly zero, so clearing a column makes it a
unit column bit for bit. The places to come work to the right of it, and exchange only rows that
are zero in it; so every tableau that is recorded from then on shows it, and the last one is the
identity beside the solution.
-/
namespace RowReduction

variable {α : Type} {m n : Nat}

/-- The first `k` columns of a tableau are unit columns. -/
def Tableau.UnitColumns [Zero α] [One α] (k : Nat) (M : Tableau α m n) : Prop :=
  ∀ (r : Fin m) (j : Fin n), j.val < k → M r j = if r.val = j.val then 1 else 0

namespace Tableau.UnitColumns

variable [Zero α] [One α] {k l : Nat} {M N : Tableau α m n}

theorem congr (h : M.UnitColumns k) (hsame : ∀ r j, j.val < k → N r j = M r j) :
    N.UnitColumns k :=
  fun r j hj => (hsame r j hj).trans (h r j hj)

/-- Below the unit columns their rows are zero. -/
theorem eq_zero (h : M.UnitColumns k) {r : Fin m} (hr : k ≤ r) {j : Fin n} (hj : j.val < k) :
    M r j = 0 := by
  rw [h r j hj, if_neg (by omega)]

end Tableau.UnitColumns

open Tableau

/-! ## Columns that are unit columns stay so -/

section Kept

variable [Scalar α] {d : Diagonal m n} {M N K : Tableau α m n} {steps : List (RowStep α)} {k : Nat}

/-- A pivot row comes up between rows that are zero in the unit columns. -/
theorem BringsUp.unitColumns (h : BringsUp d M steps N) (hk : k ≤ d.index) (hM : M.UnitColumns k) :
    N.UnitColumns k ∧ ∀ s ∈ steps, s.Shows (UnitColumns k (α := α) (m := m) (n := n)) := by
  cases h with
  | inPlace _ => exact ⟨hM, fun s hs => nomatch hs⟩
  | exchanged hbelow hswap =>
      have hN : N.UnitColumns k := hM.congr fun r j hj => by
        have hplace : M d.row j = 0 := hM.eq_zero hk hj
        have hchosen : M (M.pivotRow d.row d.column) j = 0 :=
          hM.eq_zero (hk.trans (Nat.le_of_lt hbelow)) hj
        rw [Replays.swap_apply (i := d.row) hswap]
        split
        · rename_i hr
          rw [hchosen, hr, hplace]
        · split
          · rename_i hr
            rw [hplace, hr, hchosen]
          · rfl
      exact ⟨hN, fun s hs => List.mem_singleton.mp hs ▸ hswap.shows hN⟩

/-- Eliminations work from the pivot column on. -/
theorem Eliminates.unitColumns {factor : Tableau α m n → Fin m → α} {skips : α → Bool}
    {rows : List (Fin m)} (h : Eliminates d factor skips rows M steps N) (hk : k ≤ d.index)
    (hM : M.UnitColumns k) :
    N.UnitColumns k ∧ ∀ s ∈ steps, s.Shows (UnitColumns k (α := α) (m := m) (n := n)) := by
  induction h with
  | nil => exact ⟨hM, fun s hs => nomatch hs⟩
  | skip _ _ ih => exact ih hM
  | eliminate _ hstep _ ih =>
      have hK := hM.congr fun r j hj => by
        rw [Replays.eliminate_apply (i := d.row) hstep, if_neg]
        exact fun hcond => absurd hcond.2 (Nat.not_le.mpr (hj.trans_le hk))
      obtain ⟨hN, hsteps⟩ := ih hK
      exact ⟨hN, List.forall_mem_cons.mpr ⟨hstep.shows hK, hsteps⟩⟩

/-- So does clearing a column. -/
theorem ClearsAround.unitColumns (h : ClearsAround d K steps N) (hk : k ≤ d.index)
    (hK : K.UnitColumns k) :
    N.UnitColumns k ∧ ∀ s ∈ steps, s.Shows (UnitColumns k (α := α) (m := m) (n := n)) := by
  obtain ⟨hdivides, heliminates⟩ := h
  have hL := hK.congr fun r j hj => by
    rw [Replays.normalize_apply (i := d.row) hdivides, if_neg]
    exact fun hcond => absurd hcond.2 (Nat.not_le.mpr (hj.trans_le hk))
  obtain ⟨hN, hsteps⟩ := heliminates.unitColumns hk hL
  exact ⟨hN, List.forall_mem_cons.mpr ⟨hdivides.shows hL, hsteps⟩⟩

end Kept

/-! ## Cleared columns become unit columns -/

/-- All factors among the steps are finite. -/
def FiniteFactors (steps : List (RowStep Binary64)) : Prop :=
  ∀ f ∈ steps.filterMap Step.factor?, f.isFinite = true

theorem FiniteFactors.append_iff {first second : List (RowStep Binary64)} :
    FiniteFactors (first ++ second) ↔ FiniteFactors first ∧ FiniteFactors second := by
  rw [FiniteFactors, List.filterMap_append, List.forall_mem_append]
  rfl

/-- A pivot that a column can be cleared with: a finite number other than zero. -/
def Binary64.IsPivot (p : Binary64) : Prop := p.isFinite = true ∧ p.isZero = false

section Cleared

variable {d : Diagonal m n} {M N K S : Tableau Binary64 m n} {steps : List (RowStep Binary64)}

/-- **Eliminations below and above a one** leave exact zeros, whatever was there. -/
theorem Eliminates.column_eq {rows : List (Fin m)}
    (h : Eliminates d (fun M r => M r d.column) (fun _ => false) rows M steps N)
    (hrow : d.row ∉ rows) (hone : M d.row d.column = 1) (hfactors : FiniteFactors steps)
    (r : Fin m) : N r d.column = if r ∈ rows then 0 else M r d.column := by
  induction h with
  | nil => rw [if_neg List.not_mem_nil]
  | skip hskip _ _ => exact nomatch hskip
  | @eliminate M K N q rest steps _ hstep _ ih =>
      have hq : d.row ≠ q := List.ne_of_not_mem_cons hrow
      obtain ⟨hfactor, hfactors⟩ := List.forall_mem_cons.mp hfactors
      have hK (p : Fin m) : K p d.column = if p = q then 0 else M p d.column := by
        rw [Replays.eliminate_apply (i := d.row) hstep]
        by_cases hp : p = q
        · rw [if_pos ⟨hp, le_refl d.index⟩, if_pos hp, hp, hone, Binary64.mul_comm]
          change _ - Binary64.one * _ = _
          rw [Binary64.one_mul]
          exact Binary64.sub_self_eq_zero hfactor
        · rw [if_neg (fun hcond => hp hcond.1), if_neg hp]
      have hKone : K d.row d.column = 1 := by rw [hK, if_neg hq, hone]
      rw [ih (List.not_mem_of_not_mem_cons hrow) hKone hfactors, hK]
      simp only [List.mem_cons]
      split_ifs <;> simp_all

/-- **Clearing a column** with such a pivot makes it a unit column. -/
theorem ClearsAround.unitColumns_succ (h : ClearsAround d K steps N)
    (hK : K.UnitColumns d.index) (hpivot : (K d.row d.column).IsPivot)
    (hfactors : FiniteFactors steps) : N.UnitColumns (d.index + 1) := by
  obtain ⟨hbefore, _⟩ := h.unitColumns (le_refl d.index) hK
  obtain ⟨hdivides, heliminates⟩ := h
  have hone := Replays.normalize_apply (i := d.row) hdivides d.row d.column
  rw [if_pos ⟨rfl, le_refl d.index⟩, Binary64.div_self_eq_one hpivot.1 hpivot.2] at hone
  have hcolumn := heliminates.column_eq (not_mem_rowsBesides d.row) hone hfactors
  intro r j hj
  rcases Nat.lt_succ_iff_lt_or_eq.mp hj with hlt | heq
  · exact hbefore r j hlt
  · have hj : j = d.column := Fin.ext heq
    rw [hj, hcolumn]
    by_cases hr : r = d.row
    · rw [if_neg (fun hmem => mem_rowsBesides.mp hmem hr), hr, hone]
      exact (if_pos rfl).symm
    · have hval : r.val ≠ d.column.val := fun hval => hr (Fin.ext hval)
      rw [if_pos (mem_rowsBesides.mpr hr), if_neg hval]

/-- **After any number of places** their columns are unit columns. -/
theorem Blocks.unitColumns {k : Nat} {pivots : List Binary64}
    (h : Blocks ClearsAround S k pivots steps N) (hpivots : ∀ p ∈ pivots, p.IsPivot)
    (hfactors : FiniteFactors steps) : N.UnitColumns k := by
  induction h with
  | start => exact fun _ _ hj => absurd hj (Nat.not_lt_zero _)
  | place _ up clears ih =>
      obtain ⟨hpivots, hpivot⟩ := List.forall_mem_append.mp hpivots
      obtain ⟨hsteps, hblock⟩ := FiniteFactors.append_iff.mp hfactors
      obtain ⟨_, hcleared⟩ := FiniteFactors.append_iff.mp hblock
      obtain ⟨hK, _⟩ := up.unitColumns (le_refl _) (ih hpivots hsteps)
      exact clears.unitColumns_succ hK (List.forall_mem_singleton.mp hpivot) hcleared

end Cleared

/-! ## The reduction -/

/-- **A sweep from its `k`-th place on** keeps the pivots it has, and the first `k` columns if these
are unit columns: every step that it still records shows them. -/
theorem Sweep.run_later [Scalar α] {tolerance : α} {s t : Progress α m n} {k l : Nat} (hkl : k ≤ l)
    {hm : l ≤ m} {hn : l ≤ n} (h : run Progress.clearColumn tolerance s l hm hn = complete t) :
    ∃ (u : Progress α m n) (later : List (RowStep α)),
      run Progress.clearColumn tolerance s k (hkl.trans hm) (hkl.trans hn) = complete u ∧
      u.pivots ⊆ t.pivots ∧ u.log.Extended later t.log ∧
      (u.working.UnitColumns k → t.working.UnitColumns k ∧
        ∀ step ∈ later, step.Shows (UnitColumns k (α := α) (m := m) (n := n))) := by
  induction l, hkl using Nat.le_induction generalizing t with
  | base => exact ⟨t, [], h, List.Subset.refl _, .refl _, fun ht => ⟨ht, fun _ hs => nomatch hs⟩⟩
  | succ l hkl ih =>
      obtain ⟨v, hpasses, rfl⟩ := passes_of_run_succ h
      obtain ⟨u, later, hu, hpivots, hlog, hkept⟩ := ih hpasses.reached
      obtain ⟨exchange, hup, hexchange, _⟩ := v.pivoted_bringsUp ⟨l, hm, hn⟩
      obtain ⟨cleared, hclears, hcleared⟩ :=
        Progress.clearColumn_takes.steps ⟨l, hm, hn⟩ (v.pivoted ⟨l, hm, hn⟩)
      refine ⟨u, later ++ (exchange ++ cleared), hu, ?_, hlog.trans (hexchange.trans hcleared),
        fun hunits => ?_⟩
      · rw [Progress.clearColumn_pivots, Progress.pivoted_pivots]
        exact List.subset_append_of_subset_left _ hpivots
      · obtain ⟨hv, hlater⟩ := hkept hunits
        obtain ⟨hK, hexchange⟩ := hup.unitColumns hkl hv
        obtain ⟨hN, hcleared⟩ := hclears.unitColumns hkl hK
        exact ⟨hN, List.forall_mem_append.mpr
          ⟨hlater, List.forall_mem_append.mpr ⟨hexchange, hcleared⟩⟩⟩

namespace Tableau

variable {A : Tableau Binary64 n n} {b : Vector Binary64 n} {tolerance : Binary64}
  {r : Reduction Binary64 n}

/-- With unit columns in the matrix part of one reduced tableau, they are there with every log. -/
theorem gaussJordan_identity_of_unitColumns (h : A.gaussJordan b tolerance .empty = .ok r)
    (hunits : r.reduced.UnitColumns n) (log : Log Binary64) :
    ∃ r', A.gaussJordan b tolerance log = .ok r' ∧
      (∀ i j : Fin n, r'.reduced i j.castSucc = if i = j then 1 else 0) ∧
      ∀ i : Fin n, r'.solution.get i = r'.reduced i (Fin.last n) := by
  have hunlogged : unloggedEnding (A.gaussJordan b tolerance log) =
      unloggedEnding (.ok r) := by
    rw [← h, ← gaussJordan_unlogged, ← gaussJordan_unlogged]
  cases hr' : A.gaussJordan b tolerance log with
  | error f =>
      rw [hr'] at hunlogged
      exact nomatch hunlogged
  | ok r' =>
      rw [hr'] at hunlogged
      simp only [unloggedEnding, Except.ok.injEq] at hunlogged
      obtain ⟨_, hreduced, _⟩ := Reduction.mk.inj hunlogged
      refine ⟨r', rfl, fun i j => ?_, fun i => ?_⟩
      · rw [hreduced, hunits i j.castSucc j.isLt]
        simp only [Fin.val_castSucc, Fin.ext_iff]
      · rw [gaussJordan_solution_eq hr', get_eq_getElem, column_getElem]

/-- The log of an answer falls into what the first `k` places have recorded and later steps; the
places have made unit columns, and the steps show them. -/
theorem gaussJordan_unitColumns {t : Progress Binary64 n (n + 1)}
    (htol : Binary64.zero.lt tolerance = true)
    (hsweep : A.gaussJordanSweep b tolerance .empty = .complete t)
    (hpivots : ∀ p ∈ t.pivots, p.isFinite = true)
    (hfactors : FiniteFactors t.reduction.log.steps) (k : Nat) (hk : k ≤ n) :
    ∃ (s : Progress Binary64 n (n + 1)) (later : List (RowStep Binary64)),
      Sweep.run Progress.clearColumn tolerance
        (.start (A.augment b) (Log.empty.record fun _ => .initial (A.augment b).toLists)) k hk
        (Nat.le_succ_of_le hk) = .complete s ∧
      s.working.UnitColumns k ∧
      t.reduction.log.steps = s.log.steps ++ later ∧
      ∀ step ∈ later, step.Shows fun M : Tableau Binary64 n (n + 1) => M.UnitColumns k := by
  have hnonzero := (Sweep.run_hasPivots Progress.clearColumn_pivots hsweep).isZero_eq_false htol
  obtain ⟨s, later, hs, hsub, hlog, hkept⟩ := Sweep.run_later hk hsweep
  obtain ⟨blocks, hblocks, hrecorded, _⟩ := Sweep.run_blocks Progress.clearColumn_takes hs
  have hinitial := (Log.empty.extended_record fun _ => .initial (A.augment b).toLists).trans
    hrecorded
  have hfinal : t.log.Extended
      [.final t.reduction.solution.toList (some t.working.toLists)] t.reduction.log :=
    t.log.extended_record _
  have hbefore : s.log.steps = [.initial (A.augment b).toLists] ++ blocks := hinitial.steps_eq rfl
  have hall := (hlog.trans hfinal).steps_eq (Log.Grows.steps?_eq_some ⟨_, hinitial⟩)
  have hunits : s.working.UnitColumns k := by
    refine hblocks.unitColumns (fun p hp => ⟨hpivots p (hsub hp), hnonzero p (hsub hp)⟩) ?_
    rw [hall, FiniteFactors.append_iff, hbefore, FiniteFactors.append_iff] at hfactors
    exact hfactors.1.2
  obtain ⟨ht, hlater⟩ := hkept hunits
  exact ⟨s, _, hs, hunits, hall, List.forall_mem_append.mpr
    ⟨hlater, List.forall_mem_singleton.mpr
      ⟨t.working, congrArg some t.working.toLists_eq_ofFn, ht⟩⟩⟩

/-- **A Gauss-Jordan reduction ends with exactly `[I|x]`**, rounding or not, when all its pivots and
factors are finite: in the matrix part of the reduced tableau there are ones on the diagonal and
positive zeros elsewhere, and the last column holds the solution. After `k` places the first `k`
columns are unit columns already, and every tableau that is recorded later shows them so. -/
theorem gaussJordan_reduces_to_identity (A : Tableau Binary64 n n) (b : Vector Binary64 n)
    (htol : Binary64.zero.lt tolerance = true) (hr : A.gaussJordan b tolerance .empty = .ok r)
    (hpivots : ∀ p ∈ r.pivots, p.isFinite = true) (hfactors : FiniteFactors r.log.steps) :
    (∀ log, ∃ r', A.gaussJordan b tolerance log = .ok r' ∧
      (∀ i j : Fin n, r'.reduced i j.castSucc = if i = j then 1 else 0) ∧
      ∀ i : Fin n, r'.solution.get i = r'.reduced i (Fin.last n)) ∧
    ∀ (k : Nat) (hk : k ≤ n), ∃ (s : Progress Binary64 n (n + 1))
      (later : List (RowStep Binary64)),
      Sweep.run Progress.clearColumn tolerance
        (.start (A.augment b) (Log.empty.record fun _ => .initial (A.augment b).toLists)) k hk
        (Nat.le_succ_of_le hk) = .complete s ∧
      s.working.UnitColumns k ∧
      r.log.steps = s.log.steps ++ later ∧
      ∀ step ∈ later, step.Shows fun M : Tableau Binary64 n (n + 1) => M.UnitColumns k := by
  obtain ⟨t, hsweep, rfl⟩ := gaussJordan_of_ok hr
  have hplaces := gaussJordan_unitColumns htol hsweep hpivots hfactors
  obtain ⟨s, _, hs, hunits, _⟩ := hplaces n (le_refl n)
  -- after all places the sweep is where the reduction ends
  cases hs.symm.trans hsweep
  exact ⟨gaussJordan_identity_of_unitColumns hr hunits, hplaces⟩

/-- Three equations whose reduction exchanges rows and rounds. -/
def sevenths : Tableau Binary64 3 3 :=
  ⟨#v[#v[.one, .ofInt 10, .ofInt 3], #v[.ofInt 7, .one, .ofInt 2],
    #v[.ofInt 2, .ofInt 3, .ofInt 5]]⟩

/-- The solution of these equations as it is rounded. -/
def seventhsSolution : List Binary64 :=
  [.ofDecimal true 2637795275590551 (-16), .ofDecimal true 17716535433070862 (-17),
    .ofDecimal false 10118110236220472 (-16)]

theorem gaussJordan_reduces_to_identity_three :
    Binary64.zero.lt .one = true ∧
      ∃ r, sevenths.gaussJordan #v[.one, .zero, .ofInt 4] .one .empty = .ok r ∧
        (∀ p ∈ r.pivots, p.isFinite = true) ∧ FiniteFactors r.log.steps ∧
        (∀ i j : Fin 3, r.reduced i j.castSucc = if i = j then 1 else 0) ∧
        r.solution.toList = seventhsSolution ∧
        (List.ofFn fun i : Fin 3 => r.reduced i (Fin.last 3)) = seventhsSolution ∧
        ∃ (s : Progress Binary64 3 4) (later : List (RowStep Binary64)),
          s.working.UnitColumns 2 ∧ r.log.steps = s.log.steps ++ later ∧
          ∀ step ∈ later, step.Shows fun M : Tableau Binary64 3 4 => M.UnitColumns 2 := by
  have htol : Binary64.zero.lt .one = true := by decide +kernel
  have hrun : (sevenths.gaussJordan #v[.one, .zero, .ofInt 4] .one .empty).toOption.map
      (fun r => (r.pivots.all Binary64.isFinite,
        (r.log.steps.filterMap Step.factor?).all Binary64.isFinite, r.solution.toList)) =
        some (true, true, seventhsSolution) := by
    decide +kernel
  obtain ⟨r, hr, hfound⟩ := eq_ok_of_toOption_map_eq_some hrun
  simp only [Prod.mk.injEq] at hfound
  obtain ⟨hpivots, hfactors, hsolution⟩ := hfound
  obtain ⟨hidentity, hplaces⟩ := gaussJordan_reduces_to_identity sevenths #v[.one, .zero, .ofInt 4]
    htol hr (List.all_eq_true.mp hpivots) (List.all_eq_true.mp hfactors)
  obtain ⟨r', hr', hreduced, hlast⟩ := hidentity .empty
  cases hr.symm.trans hr'
  have hcolumn : (List.ofFn fun i : Fin 3 => r.reduced i (Fin.last 3)) = r.solution.toList := by
    rw [← funext hlast, ← Vector.toList_ofFn]
    exact congrArg Vector.toList Vector.ofFn_getElem
  obtain ⟨s, later, _, hunits, hsteps, hlater⟩ := hplaces 2 (by decide)
  exact ⟨htol, r, hr, List.all_eq_true.mp hpivots, List.all_eq_true.mp hfactors, hreduced,
    hsolution, hcolumn.trans hsolution, s, later, hunits, hsteps, hlater⟩

end Tableau

end RowReduction
