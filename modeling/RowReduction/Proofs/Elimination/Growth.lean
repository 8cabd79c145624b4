import RowReduction.Proofs.Binary64.Bounds
import RowReduction.Proofs.Elimination.Pivots

/-!
The growth of the entries in a triangular sweep, with rounding. The pivot is the largest
candidate, so the factor of every row below it is at most one. The multiple of the pivot row that
a row loses is then no larger than the pivot row, and the entries at most double at a place. While
the doubled bounds are in range nothing overflows: not in the working tableau, not among the
pivots, and in none of the tableaus that are recorded.
-/
namespace RowReduction

variable {m n : Nat}

namespace Tableau

/-- All entries are finite and of at most `bound` units. -/
def AtMost (bound : Nat) (M : Tableau Binary64 m n) : Prop := ∀ r j, (M r j).AtMost bound

theorem AtMost.mono {u v : Nat} {M : Tableau Binary64 m n} (h : M.AtMost u) (huv : u ≤ v) :
    M.AtMost v :=
  fun r j => (h r j).mono huv

theorem AtMost.of_mem_toLists {u : Nat} {M : Tableau Binary64 m n} (h : M.AtMost u) :
    ∀ row ∈ M.toLists, ∀ x ∈ row, x.AtMost u := by
  rw [M.toLists_eq_ofFn, List.forall_mem_ofFn_iff]
  intro r
  rw [List.forall_mem_ofFn_iff]
  exact h r

/-- The largest magnitude among the entries, in units. -/
def largest (M : Tableau Binary64 m n) : Nat :=
  Finset.univ.sup fun r => Finset.univ.sup fun j => (M r j).units.natAbs

theorem isMagnitude_largest (M : Tableau Binary64 m n) : IsMagnitude M.largest :=
  Finset.sup_induction .zero (fun _ hu _ hv => hu.max hv) fun r _ =>
    Finset.sup_induction .zero (fun _ hu _ hv => hu.max hv) fun j _ =>
      (M r j).isMagnitude_natAbs_units

theorem atMost_largest {M : Tableau Binary64 m n} (hfinite : ∀ r j, (M r j).isFinite = true) :
    M.AtMost M.largest := by
  intro r j
  have hrow : (M r j).units.natAbs ≤ Finset.univ.sup fun j => (M r j).units.natAbs :=
    Finset.le_sup (f := fun j => (M r j).units.natAbs) (Finset.mem_univ j)
  have hall : (Finset.univ.sup fun j => (M r j).units.natAbs) ≤ M.largest :=
    Finset.le_sup (f := fun r => Finset.univ.sup fun j => (M r j).units.natAbs) (Finset.mem_univ r)
  exact ⟨hfinite r j, hrow.trans hall⟩

end Tableau

/-- A step stays within a bound: the entries that it shows are of at most `bound` units, and the
factor that it multiplies by is at most one. -/
structure Step.Within (bound : Nat) (step : RowStep Binary64) : Prop where
  shown : ∀ rows ∈ step.tableau?, ∀ row ∈ rows, ∀ x ∈ row, x.AtMost bound
  factor : ∀ f ∈ step.factor?, f.AtMost Binary64.one.units.natAbs

theorem Step.Within.mono {u v : Nat} {step : RowStep Binary64} (h : step.Within u) (huv : u ≤ v) :
    step.Within v where
  shown rows hrows row hrow x hx := (h.shown rows hrows row hrow x hx).mono huv
  factor := h.factor

/-- A step without a factor is within the bound of the tableau that it shows, if it shows one. -/
theorem Step.within_of_factor?_eq_none {u : Nat} {M : Tableau Binary64 m n}
    {step : RowStep Binary64} (hfactor : step.factor? = none)
    (hshown : ∀ rows ∈ step.tableau?, rows = M.toLists) (hM : M.AtMost u) : step.Within u where
  shown rows hrows := hshown rows hrows ▸ hM.of_mem_toLists
  factor f hf := by
    rw [hfactor] at hf
    exact nomatch hf

section Place

variable {d : Diagonal m n} {M N K : Tableau Binary64 m n} {steps : List (RowStep Binary64)}
  {u : Nat}

/-- An exchange moves entries and leaves them as they are. -/
theorem BringsUp.atMost (h : BringsUp d M steps K) (hM : M.AtMost u) :
    K.AtMost u ∧ ∀ step ∈ steps, step.Within u := by
  cases h with
  | inPlace _ => exact ⟨hM, fun _ hs => nomatch hs⟩
  | exchanged _ hswap =>
      have hK : K.AtMost u := fun r j => by
        rw [Replays.swap_apply (i := d.row) hswap]
        split
        · exact hM _ j
        · split
          · exact hM _ j
          · exact hM r j
      refine ⟨hK, List.forall_mem_singleton.mpr ?_⟩
      exact Step.within_of_factor?_eq_none rfl (fun _ hrows => (Option.some.inj hrows).symm) hK

/-- The pivot that was brought up is outranked by no entry below it. -/
theorem BringsUp.not_outranked (h : BringsUp d M steps K) {r : Fin m} (hr : d.row ≤ r) :
    Scalar.outranks (K r d.column) (K d.row d.column) = false := by
  have hlargest {r : Fin m} (hr : d.row ≤ r) := M.pivotRow_not_outranked d.row d.column hr
  cases h with
  | inPlace hplace =>
      have hr := hlargest hr
      rwa [hplace] at hr
  | exchanged hbelow hswap =>
      rw [Replays.swap_apply (i := d.row) hswap, Replays.swap_apply (i := d.row) hswap, if_pos rfl]
      split
      · exact hlargest hbelow.le
      · split
        · exact hlargest (le_refl d.row)
        · exact hlargest hr

/-- So the factors of the entries below it are at most one. -/
theorem BringsUp.factor_atMost (h : BringsUp d M steps K) (hM : M.AtMost u)
    (hzero : (K d.row d.column).isZero = false) {r : Fin m} (hr : d.row ≤ r) :
    (K r d.column / K d.row d.column).AtMost Binary64.one.units.natAbs := by
  obtain ⟨hK, _⟩ := h.atMost hM
  have hfinite := (hK d.row d.column).isFinite
  exact (Binary64.atMost_of_not_outranked (h.not_outranked hr) hfinite).div hfinite hzero

/-- **Eliminations with factors of at most one** at most double the entries: each row loses at most
what the pivot row has, and loses it once. -/
theorem Eliminates.atMost {rows : List (Fin m)}
    (h : Eliminates d (fun M r => M r d.column / M d.row d.column) Scalar.isZero rows M steps N)
    (hnodup : rows.Nodup) (hd : d.row ∉ rows) (hu : IsMagnitude u) (hdouble : IsMagnitude (u + u))
    (hfactors : ∀ r ∈ rows, (M r d.column / M d.row d.column).AtMost Binary64.one.units.natAbs)
    (hpivot : ∀ j, (M d.row j).AtMost u) (hrows : ∀ r ∈ rows, ∀ j, (M r j).AtMost u)
    (hM : M.AtMost (u + u)) :
    N.AtMost (u + u) ∧ ∀ step ∈ steps, step.Within (u + u) := by
  induction h with
  | nil => exact ⟨hM, fun _ hs => nomatch hs⟩
  | skip _ _ ih =>
      obtain ⟨_, hnodup⟩ := List.nodup_cons.mp hnodup
      obtain ⟨_, hfactors⟩ := List.forall_mem_cons.mp hfactors
      obtain ⟨_, hrows⟩ := List.forall_mem_cons.mp hrows
      exact ih hnodup (List.not_mem_of_not_mem_cons hd) hfactors hpivot hrows hM
  | @eliminate M K N q rest steps _ hstep _ ih =>
      obtain ⟨hq, hnodup⟩ := List.nodup_cons.mp hnodup
      obtain ⟨hfactor, hfactors⟩ := List.forall_mem_cons.mp hfactors
      obtain ⟨hrow, hrows⟩ := List.forall_mem_cons.mp hrows
      have happly := Replays.eliminate_apply (i := d.row) hstep
      -- the pivot row and the rows that are still to come are as they were
      have hsame (p : Fin m) (hp : p ≠ q) (j : Fin n) : K p j = M p j := by
        rw [happly, if_neg (fun hcond => hp hcond.1)]
      have hplace : d.row ≠ q := List.ne_of_not_mem_cons hd
      have hlater {r : Fin m} (hr : r ∈ rest) : r ≠ q := fun heq => hq (heq ▸ hr)
      have hK : K.AtMost (u + u) := by
        intro p j
        rw [happly]
        split
        · rename_i hcond
          rw [hcond.1]
          exact (hrow j).sub (hfactor.mul (hpivot j) hu) hdouble
        · exact hM p j
      obtain ⟨hN, hsteps⟩ := ih hnodup (List.not_mem_of_not_mem_cons hd)
        (fun r hr => by rw [hsame r (hlater hr), hsame d.row hplace]; exact hfactors r hr)
        (fun j => by rw [hsame d.row hplace]; exact hpivot j)
        (fun r hr j => by rw [hsame r (hlater hr)]; exact hrows r hr j) hK
      refine ⟨hN, List.forall_mem_cons.mpr ⟨⟨?_, ?_⟩, hsteps⟩⟩
      · intro rows hrows
        rw [← Option.some.inj hrows]
        exact hK.of_mem_toLists
      · intro f hf
        rw [← Option.some.inj hf]
        exact hfactor

end Place

/-- **The growth over places**: the entries at most double at each of them, as long as that is in
range, and all that is recorded stays within the bound. -/
theorem Blocks.growth {S N : Tableau Binary64 m n} {k u : Nat} {pivots : List Binary64}
    {steps : List (RowStep Binary64)} (h : Blocks ClearsBelow S k pivots steps N)
    (hS : S.AtMost u) (hu : IsMagnitude u) (hrange : 2 ^ k * u < 2 ^ 1024 * 2 ^ 1074)
    (hpivots : ∀ p ∈ pivots, p.isZero = false) :
    N.AtMost (2 ^ k * u) ∧ (∀ p ∈ pivots, p.AtMost (2 ^ k * u)) ∧
      ∀ step ∈ steps, step.Within (2 ^ k * u) := by
  induction h with
  | start =>
      rw [pow_zero, one_mul]
      exact ⟨hS, List.forall_mem_nil _, List.forall_mem_nil _⟩
  | @place d pivots steps exchange cleared M K N _ up clears ih =>
      have htwice : 2 ^ (d.index + 1) * u = 2 ^ d.index * u + 2 ^ d.index * u := by ring
      have hdouble := hu.two_pow_mul hrange
      rw [htwice] at hrange hdouble ⊢
      have hbefore : 2 ^ d.index * u < 2 ^ 1024 * 2 ^ 1074 := by omega
      have hle : 2 ^ d.index * u ≤ 2 ^ d.index * u + 2 ^ d.index * u := Nat.le_add_right _ _
      obtain ⟨hnonzero, hpivot⟩ := List.forall_mem_append.mp hpivots
      obtain ⟨hM, htaken, hsteps⟩ := ih hbefore hnonzero
      obtain ⟨hK, hexchange⟩ := up.atMost hM
      have hzero : (K d.row d.column).isZero = false := hpivot _ List.mem_cons_self
      have hfactors (r : Fin m) (hr : r ∈ rowsBelow d.row) :
          (K r d.column / K d.row d.column).AtMost Binary64.one.units.natAbs :=
        up.factor_atMost hM hzero (mem_rowsBelow.mp hr).le
      obtain ⟨hN, hcleared⟩ := Eliminates.atMost clears (rowsBelow_nodup d.row)
        (not_mem_rowsBelow d.row) (hu.two_pow_mul hbefore) hdouble hfactors (hK d.row)
        (fun r _ => hK r) (hK.mono hle)
      refine ⟨hN, List.forall_mem_append.mpr ⟨fun p hp => (htaken p hp).mono hle, ?_⟩,
        List.forall_mem_append.mpr ⟨fun s hs => (hsteps s hs).mono hle,
          List.forall_mem_append.mpr ⟨fun s hs => (hexchange s hs).mono hle, hcleared⟩⟩⟩
      exact List.forall_mem_singleton.mpr ((hK d.row d.column).mono hle)

namespace Sweep

variable {A : Tableau Binary64 m n} {tolerance : Binary64} {log : Log Binary64}
  {s : Progress Binary64 m n}

/-- **The growth over a sweep**: `k` places multiply the largest entry by `2 ^ k` at most. -/
theorem run_growth {k : Nat} {hm : k ≤ m} {hn : k ≤ n} (htol : Binary64.zero.lt tolerance = true)
    (hfinite : ∀ r j, (A r j).isFinite = true)
    (hrange : 2 ^ k * A.largest < 2 ^ 1024 * 2 ^ 1074)
    (h : run Progress.clearBelow tolerance (.start A log) k hm hn = complete s) :
    s.working.AtMost (2 ^ k * A.largest) ∧ (∀ p ∈ s.pivots, p.AtMost (2 ^ k * A.largest)) ∧
      ∃ steps, log.Extended steps s.log ∧ ∀ step ∈ steps, step.Within (2 ^ k * A.largest) := by
  obtain ⟨steps, hblocks, hlog, _⟩ := run_blocks Progress.clearBelow_takes h
  have hnonzero := (run_hasPivots Progress.clearBelow_pivots h).isZero_eq_false htol
  obtain ⟨hworking, hpivots, hsteps⟩ :=
    hblocks.growth (Tableau.atMost_largest hfinite) A.isMagnitude_largest hrange hnonzero
  exact ⟨hworking, hpivots, steps, hlog, hsteps⟩

/-- At every place that is passed, the factor of each row below is at most one. -/
theorem Passes.factor_atMost {d : Diagonal m n}
    (h : Passes Progress.clearBelow tolerance (.start A log) d s)
    (htol : Binary64.zero.lt tolerance = true) (hfinite : ∀ r j, (A r j).isFinite = true)
    (hrange : 2 ^ d.index * A.largest < 2 ^ 1024 * 2 ^ 1074) {r : Fin m} (hr : d.row < r) :
    let M := (s.pivoted d).working
    (M r d.column / M d.row d.column).AtMost Binary64.one.units.natAbs := by
  intro M
  obtain ⟨exchange, hup, _⟩ := s.pivoted_bringsUp d
  obtain ⟨hworking, _⟩ := run_growth htol hfinite hrange h.reached
  have haccepted : (M d.row d.column).abs.lt tolerance = false :=
    (congrArg (Binary64.lt · tolerance) (s.abs_pivot d)).trans h.accepted
  exact hup.factor_atMost hworking (Binary64.isZero_eq_false_of_abs_not_lt haccepted htol) hr.le

end Sweep

namespace Tableau

/-- **Partial pivoting bounds the growth of a triangular reduction.** With finite entries and
`2 ^ n` times the largest of them in range, every factor is at most one, and `k` places multiply the
largest entry by `2 ^ k` at most. So the tableau, the pivots and all that is recorded are finite;
only the product of the diagonal can overflow. -/
theorem triangulate_growth (A : Tableau Binary64 n n) {tolerance : Binary64}
    (htol : Binary64.zero.lt tolerance = true) (hfinite : ∀ r j, (A r j).isFinite = true)
    (hrange : 2 ^ n * A.largest < 2 ^ 1024 * 2 ^ 1074) (log : Log Binary64) :
    let T := A.triangulate tolerance log
    (∀ (d : Diagonal n n) (s : Progress Binary64 n n),
      Sweep.Passes Progress.clearBelow tolerance (.start A log) d s → ∀ r, d.row < r →
      let M := (s.pivoted d).working
      (M r d.column / M d.row d.column).AtMost Binary64.one.units.natAbs) ∧
    (∀ (k : Nat) (hk : k ≤ n) (s : Progress Binary64 n n),
      Sweep.run Progress.clearBelow tolerance (.start A log) k hk hk = .complete s →
      s.working.AtMost (2 ^ k * A.largest)) ∧
    T.triangular.AtMost (2 ^ n * A.largest) ∧
    (∀ p ∈ T.pivots, p.AtMost (2 ^ n * A.largest)) ∧
    ∃ steps, log.Extended steps T.log ∧ ∀ step ∈ steps, step.Within (2 ^ n * A.largest) := by
  intro T
  have hbelow {k : Nat} (hk : k ≤ n) : 2 ^ k * A.largest ≤ 2 ^ n * A.largest :=
    Nat.mul_le_mul_right _ (Nat.pow_le_pow_right Nat.two_pos hk)
  refine ⟨fun d s hs r hr => hs.factor_atMost htol hfinite
      ((hbelow d.row_lt.le).trans_lt hrange) hr,
    fun k hk s hs => (Sweep.run_growth htol hfinite ((hbelow hk).trans_lt hrange) hs).1, ?_⟩
  -- what is returned is the state of the sweep after some places
  obtain ⟨k, hk, s, _, hrun, _, _, hpivots, htriangular, ending, hending, hlast⟩ :=
    A.triangulate_shows tolerance log
  obtain ⟨hworking, htaken, steps, hsteps, hwithin⟩ :=
    Sweep.run_growth htol hfinite ((hbelow hk).trans_lt hrange) hrun
  have hshown : s.working.AtMost (2 ^ n * A.largest) := hworking.mono (hbelow hk)
  refine ⟨htriangular ▸ hshown, fun p hp => (htaken p (hpivots ▸ hp)).mono (hbelow hk),
    steps ++ ending, hsteps.trans hending, List.forall_mem_append.mpr ⟨?_, ?_⟩⟩
  · exact fun step hstep => (hwithin step hstep).mono (hbelow hk)
  · intro step hstep
    obtain ⟨hfactor, hrows⟩ := hlast step hstep
    exact Step.within_of_factor?_eq_none hfactor hrows hshown

/-- Rows whose determinant, `-2 ^ 2041`, is far out of range. -/
def largeRows : Tableau Binary64 2 2 :=
  let large := Binary64.ofRatio false (2 ^ 1020) 1
  ⟨#v[#v[large, large], #v[large, large.neg]]⟩

theorem triangulate_growth_two :
    Binary64.zero.lt .one = true ∧ (∀ r j, (largeRows r j).isFinite = true) ∧
      2 ^ 2 * largeRows.largest < 2 ^ 1024 * 2 ^ 1074 ∧
      (largeRows.triangulate .one .empty).triangular.AtMost (2 ^ 2 * largeRows.largest) ∧
      (∀ p ∈ (largeRows.triangulate .one .empty).pivots, p.AtMost (2 ^ 2 * largeRows.largest)) ∧
      (∃ steps, Log.empty.Extended steps (largeRows.triangulate .one .empty).log ∧
        ∀ step ∈ steps, step.Within (2 ^ 2 * largeRows.largest)) ∧
      (largeRows.triangulate .one .empty).value = .infinite true := by
  have htol : Binary64.zero.lt .one = true := by decide +kernel
  have hfinite : ∀ r j, (largeRows r j).isFinite = true := by decide +kernel
  have hrange : 2 ^ 2 * largeRows.largest < 2 ^ 1024 * 2 ^ 1074 := by decide +kernel
  have hvalue : (largeRows.triangulate .one .empty).value = .infinite true := by decide +kernel
  obtain ⟨_, _, htriangular, hpivots, hsteps⟩ :=
    triangulate_growth largeRows htol hfinite hrange .empty
  exact ⟨htol, hfinite, hrange, htriangular, hpivots, hsteps, hvalue⟩

end Tableau

end RowReduction
