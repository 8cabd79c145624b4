import RowReduction.Proofs.Memory.Elimination
import RowReduction.Proofs.Outcome
import RowReduction.Proofs.System.CheckedArrays
import RowReduction.System.Stored

/-!
Solving in memory. Every action that makes a system, a solution or a determinant ends as the
computation with plain numbers does, with the same fault or with arrays that show its result; and
whether it fails or not, it changes no block that was there before.
-/
namespace RowReduction

/-- **An action has carried out a computation**: it has failed with the fault of the computation, or
has ended with something that shows its result, and everything that was in memory is as it was. -/
def CarriesOut {α β : Type} (base : Memory) (shows : Memory → α → β → Prop)
    (outcome : Except Fault β) : EStateM.Result Fault Memory α → Prop
  | .ok x μ => base.Extends μ ∧ ∃ y, outcome = .ok y ∧ shows μ x y
  | .error fault μ => base.Extends μ ∧ outcome = .error fault

namespace CarriesOut

variable {α β γ δ : Type} {base base' μ : Memory} {shows : Memory → α → β → Prop}
  {shows' : Memory → γ → δ → Prop}

/-- An action that started later has carried out the same. -/
theorem weaken {shows' : Memory → α → β → Prop} {result : EStateM.Result Fault Memory α}
    {outcome : Except Fault β} (h : CarriesOut base' shows outcome result)
    (hbase : base.Extends base') (hshows : ∀ μ x y, shows μ x y → shows' μ x y) :
    CarriesOut base shows' outcome result := by
  cases result with
  | error fault μ => exact ⟨hbase.trans h.1, h.2⟩
  | ok x μ =>
      obtain ⟨hgrown, y, houtcome, hy⟩ := h
      exact ⟨hbase.trans hgrown, y, houtcome, hshows μ x y hy⟩

/-- One action after another carries out one computation after another. -/
theorem bind {action : EStateM Fault Memory α} {next : α → EStateM Fault Memory γ}
    {outcome : Except Fault β} {continuation : β → Except Fault δ}
    (h : CarriesOut base shows outcome (action μ))
    (hnext : ∀ x μ' y, base.Extends μ' → shows μ' x y →
      CarriesOut base shows' (continuation y) (next x μ')) :
    CarriesOut base shows' (outcome >>= continuation) ((action >>= next) μ) := by
  show CarriesOut base shows' _ (EStateM.bind action next μ)
  rw [EStateM.bind]
  cases hresult : action μ with
  | ok x μ' =>
      rw [hresult] at h
      obtain ⟨hgrown, y, rfl, hshows⟩ := h
      exact hnext x μ' y hgrown hshows
  | error fault μ' =>
      rw [hresult] at h
      obtain ⟨hgrown, rfl⟩ := h
      exact ⟨hgrown, rfl⟩

/-- What does not depend on memory is computed in the same way. -/
theorem bind_lift {outcome : Except Fault β} {next : β → EStateM Fault Memory γ}
    {continuation : β → Except Fault δ} (hbase : base.Extends μ)
    (hnext : ∀ y, outcome = .ok y → CarriesOut base shows' (continuation y) (next y μ)) :
    CarriesOut base shows' (outcome >>= continuation)
      ((liftM outcome >>= next : EStateM Fault Memory γ) μ) := by
  cases outcome with
  | error fault => exact ⟨hbase, rfl⟩
  | ok y => exact hnext y rfl

/-- What always succeeds. -/
theorem modifyGet {act : Memory → α × Memory} {next : α → EStateM Fault Memory γ}
    {outcome : Except Fault δ} (h : CarriesOut base shows' outcome (next (act μ).1 (act μ).2)) :
    CarriesOut base shows' outcome
      ((MonadStateOf.modifyGet act >>= next : EStateM Fault Memory γ) μ) := h

theorem get {next : Memory → EStateM Fault Memory γ} {outcome : Except Fault δ}
    (h : CarriesOut base shows' outcome (next μ μ)) :
    CarriesOut base shows' outcome ((MonadState.get >>= next : EStateM Fault Memory γ) μ) := h

/-- A check, and what is done after it. -/
theorem guard {failed : Bool} {fault : Fault} {next : EStateM Fault Memory α}
    {outcome : Except Fault β}
    (hthrow : failed = true → base.Extends μ ∧ outcome = .error fault)
    (hnext : failed = false → CarriesOut base shows outcome (next μ)) :
    CarriesOut base shows outcome
      ((do if failed then throw fault
           next : EStateM Fault Memory α) μ) := by
  cases failed with
  | true => exact hthrow rfl
  | false => exact hnext rfl

end CarriesOut

/-! ## Gauss-Jordan reduction -/

namespace StoredArray

theorem gaussJordan_carriesOut (A b : StoredArray) (n : Nat) (tolerance : Binary64)
    (recording : Bool) (μ : Memory) :
    CarriesOut μ (fun μ' x r => x.Shows μ μ' r)
      (((A.tableau μ n n).gaussJordan (b.vector μ n) tolerance (.start recording)).mapError
        Fault.ofBreakdown) (A.gaussJordan b n tolerance recording μ) := by
  have hinitial : Workspace.Displays .initial .initial := fun _ => ⟨rfl, fun _ _ => rfl⟩
  have hstart := Workspace.follows_start ((A.tableau μ n n).augment (b.vector μ n)) recording μ
  have hsweep := (hstart.record hinitial).run (fun d _ _ h => h.clearColumn d) tolerance n
    (Nat.le_refl n) (Nat.le_succ n)
  rw [gaussJordan, Tableau.gaussJordan, Tableau.gaussJordanSweep]
  cases hending : Sweep.run Progress.clearColumn tolerance
      (.start ((A.tableau μ n n).augment (b.vector μ n))
        ((Log.start recording).record fun _ =>
          .initial ((A.tableau μ n n).augment (b.vector μ n)).toLists)) n
      (Nat.le_refl n) (Nat.le_succ n) with
  | stalled column candidate s =>
      obtain ⟨w, hrun, hfollows⟩ := hending ▸ hsweep
      rw [hrun]
      exact ⟨hfollows.grown, rfl⟩
  | complete s =>
      obtain ⟨w, hrun, hfollows⟩ := hending ▸ hsweep
      rw [hrun]
      exact ⟨hfollows.reduction.1, _, rfl, hfollows.reduction.2⟩

end StoredArray

/-! ## Cramer's rule -/

/-- Some unknowns have been found in memory: they stand in an array of their own, and the log does
not show its block. -/
structure HoldsUnknowns {n : Nat} (base μ : Memory) (x : StoredArray)
    (log : Option (List StoredStep)) (found : Vector Binary64 n × Log Binary64) : Prop where
  unknowns : x.IsOwn base μ found.1
  shown : ShowsLog base μ log found.2.newestFirst?
  apart : ∀ r ∈ loggedArrays log, r.address ≠ x.address

namespace HoldsUnknowns

variable {n : Nat} {base μ μ' : Memory} {x : StoredArray} {log : Option (List StoredStep)}
  {found : Vector Binary64 n × Log Binary64}

theorem mono (h : HoldsUnknowns base μ x log found) (hμ : μ.Extends μ') :
    HoldsUnknowns base μ' x log found :=
  ⟨h.unknowns.mono hμ, h.shown.mono hμ, h.apart⟩

/-- An unknown is written to the array, which leaves the log as it was. -/
theorem write (h : HoldsUnknowns base μ x log found) (i : Fin n) (value : Binary64) :
    HoldsUnknowns base (x.fill ((x.vector μ n).set i value i.isLt).toList μ) x log
      (found.1.set i value i.isLt, found.2) := by
  obtain ⟨hload, hwriteable, hfresh, hinside⟩ := h.unknowns
  have hvector : x.vector μ n = found.1 := by
    rw [StoredArray.vector, hload, NumericArray.vector_mk]
  rw [hvector]
  refine ⟨⟨?_, hwriteable, hfresh, ?_⟩, h.shown.overwrite _ h.apart, h.apart⟩
  · have hshape : x.shape = [n] := congrArg NumericArray.shape hload
    rw [StoredArray.load, StoredArray.fill, Memory.read_overwrite_self hinside, hshape]
  · rwa [StoredArray.fill, Memory.size_overwrite]

/-- A step is recorded that shows copies in other blocks. -/
theorem record (h : HoldsUnknowns base μ x log found) {step : StoredStep}
    {step' : RowStep Binary64}
    (hstep : step.map (StoredArray.rows μ) (StoredArray.numbers μ) = step')
    (hcopies : ∀ r ∈ step.arrays, r.IsCopy base μ)
    (hapart : ∀ r ∈ step.arrays, r.address ≠ x.address) :
    HoldsUnknowns base μ x (log.map (step :: ·)) (found.1, found.2.record fun _ => step') :=
  ⟨h.unknowns, h.shown.record hstep hcopies, fun r hr =>
    (mem_loggedArrays_cons hr).elim (hapart r) (h.apart r)⟩

end HoldsUnknowns

namespace StoredArray

variable {n : Nat} {A b x : StoredArray} {base μ : Memory}

theorem tableau_of_extends (h : base.Extends μ) (hA : A.address < base.size) (m n : Nat) :
    A.tableau μ m n = A.tableau base m n := by
  rw [tableau, tableau, load_of_extends h hA]

theorem vector_of_extends (h : base.Extends μ) (hb : b.address < base.size) (n : Nat) :
    b.vector μ n = b.vector base n := by
  rw [vector, vector, load_of_extends h hb]

/-- What an array of two dimensions shows. -/
theorem rows_eq {m : Nat} (h : A.shape = [m, n]) : rows μ A = (A.tableau μ m n).toLists := by
  rw [rows, h]
  rfl

theorem rows_of_load {m : Nat} {M : Tableau Binary64 m n} (h : A.load μ = ⟨[m, n], M.entries⟩) :
    rows μ A = M.toLists := by
  rw [rows_eq (congrArg NumericArray.shape h), tableau, h, Tableau.tableau_entries]

theorem extends_replaceColumn (A b : StoredArray) (i : Fin n) (μ : Memory) :
    μ.Extends (A.replaceColumn b i μ).2 :=
  (extends_copy A μ).overwrite (Nat.le_refl _)

theorem inside_replaceColumn (A b : StoredArray) (i : Fin n) (μ : Memory) :
    (A.replaceColumn b i μ).1.address < (A.replaceColumn b i μ).2.size := by
  show μ.size < ((μ.allocate _).overwrite _ _).size
  rw [Memory.size_overwrite, Memory.size_allocate]
  exact Nat.lt_succ_self _

/-- What the copy with the new column holds. -/
theorem load_replaceColumn (hb : b.address < μ.size) (i : Fin n) :
    (A.replaceColumn b i μ).1.load (A.replaceColumn b i μ).2 =
      ⟨A.shape, ((A.tableau μ n n).setColumn i (b.vector μ n)).entries⟩ := by
  have htableau : (A.copy μ).1.tableau (A.copy μ).2 n n = A.tableau μ n n := by
    rw [tableau, load_copy, tableau]
  have hinside : μ.size < (A.copy μ).2.size := by
    rw [copy, NumericArray.size_store]
    exact Nat.lt_succ_self _
  have hfilled : (A.replaceColumn b i μ).1.load (A.replaceColumn b i μ).2 =
      ⟨A.shape, (((A.copy μ).1.tableau (A.copy μ).2 n n).setColumn i
        (b.vector (A.copy μ).2 n)).entries⟩ :=
    congrArg (NumericArray.mk A.shape) (Memory.read_overwrite_self hinside)
  rw [hfilled, htableau, vector_of_extends (extends_copy A μ) hb]

end StoredArray

/-- **The step of an unknown** is recorded with a copy of the replaced matrix and the log of its
determinant. -/
theorem HoldsUnknowns.recordUnknown {n : Nat} {base μ : Memory} {replaced x : StoredArray}
    {log minorLog : Option (List StoredStep)} {found : Vector Binary64 n × Log Binary64}
    {M : Tableau Binary64 n n} {l : Log Binary64} (h : HoldsUnknowns base μ x log found)
    (hbase : base.Extends μ) (hreplaced : replaced.load μ = ⟨[n, n], M.entries⟩)
    (hminor : ShowsLog base μ minorLog l.steps?)
    (hapart : ∀ r ∈ loggedArrays minorLog, r.address ≠ x.address) (i : Fin n)
    (determinant divisor value : Binary64) :
    HoldsUnknowns base (replaced.snapshot μ).2 x
      (log.map (.unknown i determinant divisor (replaced.snapshot μ).1 (minorLog.getD []) value :: ·))
      (found.1, found.2.record fun _ =>
        .unknown i determinant divisor M.toLists l.steps value) := by
  have hkept := StoredArray.extends_snapshot replaced μ
  have hcopy := StoredArray.IsCopy.snapshot replaced hbase
  have hshown := StoredArray.rows_of_load ((replaced.load_snapshot μ).trans hreplaced)
  have hlog := hminor.mono hkept
  refine (h.mono hkept).record ?_ (fun r hr => ?_) fun r hr => ?_
  · rw [Step.map, hshown, hlog.mapAll_getD, Log.steps]
  · rcases List.mem_cons.mp hr with rfl | hr
    · exact hcopy
    · exact hlog.copies r (arraysOf_getD minorLog ▸ hr)
  · rcases List.mem_cons.mp hr with rfl | hr
    · exact Nat.ne_of_gt h.unknowns.inside
    · exact hapart r (arraysOf_getD minorLog ▸ hr)

namespace StoredArray

variable {n : Nat} {A b x : StoredArray} {base μ : Memory}

section Unknowns

variable (hA : A.address < base.size) (hshape : A.shape = [n, n]) (hb : b.address < base.size)
  (tolerance divisor : Binary64) (recording : Bool)

include hA hshape hb

/-- **One unknown** in memory. -/
theorem cramerUnknown_carriesOut {log : Option (List StoredStep)}
    {found : Vector Binary64 n × Log Binary64} (hbase : base.Extends μ)
    (h : HoldsUnknowns base μ x log found) (i : Fin n) :
    CarriesOut base (fun μ' log found => HoldsUnknowns base μ' x log found)
      (((A.tableau base n n).cramerUnknown (b.vector base n) tolerance divisor recording found
        i).mapError Fault.ofCramerFailure)
      (A.cramerUnknown b x tolerance divisor recording log i μ) := by
  let R := A.replaceColumn b i μ
  let T := R.1.triangulate n n tolerance recording R.2
  have hcopied : μ.Extends R.2 := extends_replaceColumn A b i μ
  have hload : R.1.load R.2 =
      ⟨[n, n], ((A.tableau base n n).setColumn i (b.vector base n)).entries⟩ := by
    rw [load_replaceColumn (Nat.lt_of_lt_of_le hb hbase.size_le), tableau_of_extends hbase hA,
      vector_of_extends hbase hb, hshape]
  obtain ⟨hreduced, hminor⟩ : R.2.Extends T.2 ∧ T.1.Shows R.2 T.2 _ :=
    R.1.triangulate_shows n n tolerance recording R.2
  rw [tableau, hload, Tableau.tableau_entries] at hminor
  have hgrown := hbase.trans (hcopied.trans hreduced)
  rw [Tableau.cramerUnknown, ← hminor.value]
  refine .modifyGet (.modifyGet (.guard (fun hfinite => ?_) fun hfinite =>
    .guard (fun hzero => ?_) fun hzero => ?_))
  · rw [if_pos hfinite]
    exact ⟨hgrown, rfl⟩
  · rw [hfinite, if_neg Bool.false_ne_true, if_pos hzero]
    exact ⟨hgrown, rfl⟩
  · rw [hfinite, hzero, if_neg Bool.false_ne_true, if_neg Bool.false_ne_true]
    -- the unknown is written where neither the copy of the matrix nor a log has its block
    have hne : x.address ≠ R.1.address := Nat.ne_of_lt h.unknowns.inside
    have hapart : ∀ r ∈ loggedArrays T.1.steps?, r.address ≠ x.address := fun r hr =>
      Nat.ne_of_gt (Nat.lt_of_lt_of_le h.unknowns.inside
        (Nat.le_trans hcopied.size_le (hminor.log.copies r hr).fresh))
    have hreplaced (entries : List Binary64) : R.1.load (T.2.overwrite x.address entries) =
        ⟨[n, n], ((A.tableau base n n).setColumn i (b.vector base n)).entries⟩ :=
      (load_congr (Memory.read_overwrite_of_ne hne)).trans
        ((load_of_extends hreduced (inside_replaceColumn A b i μ)).trans hload)
    have hminorLog := hminor.log.of_extends (hbase.trans hcopied)
    have hkept (entries : List Binary64) : base.Extends (T.2.overwrite x.address entries) :=
      hgrown.overwrite h.unknowns.fresh
    have hwritten := (h.mono (hcopied.trans hreduced)).write i (T.1.value / divisor)
    have hrecorded := hwritten.recordUnknown (hkept _) (hreplaced _) (hminorLog.overwrite _ hapart)
      hapart i T.1.value divisor (T.1.value / divisor)
    cases log with
    | none =>
        have hoff : found.2.newestFirst? = none := h.shown.shown.symm
        refine ⟨hkept _, _, rfl, ?_⟩
        rw [Log.record, hoff]
        exact hwritten
    | some steps => exact ⟨(hkept _).trans (extends_snapshot _ _), _, rfl, hrecorded⟩

/-- The unknowns one after another. -/
theorem cramerUnknowns_carriesOut (is : List (Fin n)) {log : Option (List StoredStep)}
    {found : Vector Binary64 n × Log Binary64} (hbase : base.Extends μ)
    (h : HoldsUnknowns base μ x log found) :
    CarriesOut base (fun μ' log found => HoldsUnknowns base μ' x log found)
      ((is.foldlM ((A.tableau base n n).cramerUnknown (b.vector base n) tolerance divisor
        recording) found).mapError Fault.ofCramerFailure)
      (is.foldlM (A.cramerUnknown b x tolerance divisor recording) log μ) := by
  induction is generalizing log found μ with
  | nil => exact ⟨hbase, found, rfl, h⟩
  | cons i rest ih =>
      rw [List.foldlM_cons, List.foldlM_cons, mapError_bind]
      exact (cramerUnknown_carriesOut hA hshape hb tolerance divisor recording hbase h i).bind
        fun log μ' found hgrown hfound => ih hgrown hfound

end Unknowns

end StoredArray

/-! ### The logs of the rule -/

theorem HoldsUnknowns.recordSolution {n : Nat} {base μ : Memory} {x : StoredArray}
    {log : Option (List StoredStep)} {found : Vector Binary64 n × Log Binary64}
    (h : HoldsUnknowns base μ x log found) (hbase : base.Extends μ) :
    base.Extends (x.recordSolution log μ).2 ∧
      HoldsUnknowns base (x.recordSolution log μ).2 x (x.recordSolution log μ).1
        (found.1, found.2.record fun _ => .final found.1.toList none) := by
  have hkept := StoredArray.extends_snapshot x μ
  have hcopy := StoredArray.IsCopy.snapshot x hbase
  have hload := (x.load_snapshot μ).trans h.unknowns.load
  cases log with
  | none =>
      have hoff : found.2.newestFirst? = none := h.shown.shown.symm
      rw [Log.record, hoff]
      exact ⟨hbase, h⟩
  | some steps =>
      refine ⟨hbase.trans hkept, (h.mono hkept).record ?_ (fun r hr => ?_) fun r hr => ?_⟩
      · exact congrArg (Step.final · none) (congrArg NumericArray.entries hload)
      · exact List.mem_singleton.mp hr ▸ hcopy
      · exact List.mem_singleton.mp hr ▸ Nat.ne_of_gt h.unknowns.inside

/-- The array for the unknowns is made, with nothing in it yet. -/
theorem holdsUnknowns_zeros {base μ : Memory} {log : Option (List StoredStep)} {l : Log Binary64}
    (hbase : base.Extends μ) (hlog : ShowsLog base μ log l.newestFirst?) (n : Nat) :
    HoldsUnknowns base ((NumericArray.zeros [n]).store μ).2 ((NumericArray.zeros [n]).store μ).1
      log (Vector.replicate n 0, l) := by
  have hgrown := NumericArray.extends_store (NumericArray.zeros [n]) μ
  refine ⟨⟨?_, rfl, hbase.size_le, ?_⟩, hlog.mono hgrown, fun r hr =>
    Nat.ne_of_lt (hlog.copies r hr).inside⟩
  · rw [NumericArray.load_store, NumericArray.zeros, Vector.toList_replicate, shapeSize_single]
    rfl
  · rw [NumericArray.size_store]
    exact Nat.lt_succ_self _

namespace StoredArray

variable {n : Nat} {A b x : StoredArray} {base μ μ' : Memory}

theorem cramerLog_shows {t : Triangulation Binary64 n n} {main : StoredTriangulation}
    (h : main.Shows μ μ' t) (hbase : μ.Extends μ') (hA : A.address < μ.size)
    (hshape : A.shape = [n, n]) (recording : Bool) :
    μ.Extends (A.cramerLog main recording μ').2 ∧
      ShowsLog μ (A.cramerLog main recording μ').2 (A.cramerLog main recording μ').1
        ((Log.start recording).record fun _ =>
          .determinantValue main.value (some (A.tableau μ n n).toLists) t.log.steps).newestFirst? := by
  have hkept := extends_snapshot A μ'
  have hcopy := IsCopy.snapshot A hbase
  have hrows : rows (A.snapshot μ').2 (A.snapshot μ').1 = (A.tableau μ n n).toLists := by
    rw [rows_eq (show (A.snapshot μ').1.shape = [n, n] from hshape), tableau, load_snapshot,
      load_of_extends hbase hA, tableau]
  have hlog := h.log.mono hkept
  cases recording with
  | false => exact ⟨hbase, rfl, nofun⟩
  | true =>
      refine ⟨hbase.trans hkept, ?_⟩
      have hnone : ShowsLog μ (A.snapshot μ').2 (some []) (Log.start true).newestFirst? :=
        ⟨rfl, nofun⟩
      refine hnone.record ?_ fun r hr => ?_
      · exact congrArg₂ (fun shown steps => Step.determinantValue main.value (some shown) steps)
          hrows hlog.mapAll_getD
      · rcases List.mem_cons.mp hr with rfl | hr
        · exact hcopy
        · exact hlog.copies r (arraysOf_getD main.steps? ▸ hr)

end StoredArray

/-- What Cramer's rule has left in memory is what it finds with plain numbers. The solution may be
written to, and the log does not show its block. -/
structure StoredCramerSolution.Shows {n : Nat} (base μ : Memory) (x : StoredCramerSolution)
    (c : CramerSolution Binary64 n) : Prop where
  solution : x.solution.IsOwn base μ c.solution
  determinant : x.determinant = c.determinant
  log : ShowsLog base μ x.steps? c.log.steps?
  apart : ∀ r ∈ loggedArrays x.steps?, r.address ≠ x.solution.address

namespace StoredArray

variable {n : Nat} {A b : StoredArray} {μ : Memory}

theorem cramer_carriesOut (hA : A.address < μ.size) (hshape : A.shape = [n, n])
    (hb : b.address < μ.size) (tolerance : Binary64) (recording : Bool) :
    CarriesOut μ (fun μ' x c => x.Shows μ μ' c)
      (((A.tableau μ n n).cramer (b.vector μ n) tolerance recording).mapError
        Fault.ofCramerFailure) (A.cramer b n tolerance recording μ) := by
  let T := A.triangulate n n tolerance recording μ
  obtain ⟨hgrown, hmain⟩ : μ.Extends T.2 ∧ T.1.Shows μ T.2 _ :=
    A.triangulate_shows n n tolerance recording μ
  let L := A.cramerLog T.1 recording T.2
  obtain ⟨hlogged, hlog⟩ : μ.Extends L.2 ∧ ShowsLog μ L.2 L.1 _ :=
    cramerLog_shows hmain hgrown hA hshape recording
  rw [Tableau.cramer, ← hmain.value]
  refine .modifyGet (.modifyGet (.guard (fun hsmall => ?_) fun hsmall =>
    .guard (fun hfinite => ?_) fun hfinite => ?_))
  · rw [if_pos hsmall]
    exact ⟨hlogged, by rw [hmain.singularColumn]; rfl⟩
  · rw [hsmall, if_neg Bool.false_ne_true, if_pos hfinite]
    exact ⟨hlogged, rfl⟩
  · rw [hsmall, hfinite, if_neg Bool.false_ne_true, if_neg Bool.false_ne_true]
    dsimp only
    rw [mapError_bind]
    refine .modifyGet ((cramerUnknowns_carriesOut hA hshape hb tolerance T.1.value recording _
      (hlogged.trans (NumericArray.extends_store _ _))
      (holdsUnknowns_zeros hlogged hlog n)).bind fun log μ' found hgrown hfound => ?_)
    obtain ⟨hended, hsolution⟩ := hfound.recordSolution hgrown
    exact ⟨hended, _, rfl, hsolution.unknowns, rfl, hsolution.shown.reverse, fun r hr =>
      hsolution.apart r (mem_loggedArrays_reverse hr)⟩

end StoredArray

end RowReduction
