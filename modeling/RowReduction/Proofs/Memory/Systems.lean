import RowReduction.Proofs.Memory.Solving

/-!
Systems, solutions and determinants in memory. A system in memory is one that passes the checks, held
in copies; solving it gives what solving the system gives, and what is found stands in new blocks.
-/
namespace RowReduction

namespace NumericArray

/-- An array is a column, or is left as it is. -/
theorem flattenColumn_cases (a : NumericArray) :
    (∃ n entries, a = ⟨[n, 1], entries⟩) ∨ a.flattenColumn = a := by
  obtain ⟨shape, entries⟩ := a
  by_cases hcolumn : ∃ n, shape = [n, 1]
  · obtain ⟨n, rfl⟩ := hcolumn
    exact .inl ⟨n, entries, rfl⟩
  · right
    rw [flattenColumn]
    split
    · rename_i n hshape
      exact absurd ⟨n, hshape⟩ hcolumn
    · rfl

theorem flattenColumn_vector (a : NumericArray) (n : Nat) :
    a.flattenColumn.vector n = a.vector n := by
  rcases a.flattenColumn_cases with ⟨k, entries, rfl⟩ | hflat
  · rfl
  · rw [hflat]

end NumericArray

/-- Whether the right-hand side has been flattened before makes no difference. -/
theorem LinearSystem.ofArrays_flattenColumn (a b : NumericArray) :
    ofArrays a b.flattenColumn = ofArrays a b := by
  rcases b.flattenColumn_cases with ⟨n, entries, rfl⟩ | hflat
  · rfl
  · rw [hflat]

/-! ## Systems -/

/-- A system in memory: its arrays pass the checks. -/
structure StoredSystem.Holds (μ : Memory) (x : StoredSystem) (t : LinearSystem) : Prop where
  checked : LinearSystem.ofArrays (x.coefficients.load μ) (x.constants.load μ) = .ok t
  order : x.order = t.order
  coefficients : x.coefficients.address < μ.size
  constants : x.constants.address < μ.size

namespace StoredSystem

variable {base μ μ' : Memory} {x : StoredSystem} {t : LinearSystem}

namespace Holds

/-- Nothing but its own blocks matters to a system. -/
theorem congr (h : x.Holds μ t) (hsize : μ.size ≤ μ'.size)
    (hcoefficients : μ'.read x.coefficients.address = μ.read x.coefficients.address)
    (hconstants : μ'.read x.constants.address = μ.read x.constants.address) : x.Holds μ' t where
  checked := by
    rw [StoredArray.load_congr hcoefficients, StoredArray.load_congr hconstants]
    exact h.checked
  order := h.order
  coefficients := Nat.lt_of_lt_of_le h.coefficients hsize
  constants := Nat.lt_of_lt_of_le h.constants hsize

theorem mono (h : x.Holds μ t) (hμ : μ.Extends μ') : x.Holds μ' t :=
  h.congr hμ.size_le (hμ.read_eq _ h.coefficients) (hμ.read_eq _ h.constants)

theorem shape (h : x.Holds μ t) : x.coefficients.shape = [t.order, t.order] := by
  obtain ⟨n, entries, constants, _, _, _, _, ha, _, rfl⟩ := LinearSystem.ofArrays_eq_ok h.checked
  exact congrArg NumericArray.shape ha

/-- The numbers in memory are those of the system. -/
theorem tableau (h : x.Holds μ t) :
    x.coefficients.tableau μ t.order t.order = t.matrix.entries := by
  obtain ⟨n, entries, constants, _, _, _, _, ha, _, rfl⟩ := LinearSystem.ofArrays_eq_ok h.checked
  rw [StoredArray.tableau, ha]
  rfl

theorem vector (h : x.Holds μ t) : x.constants.vector μ t.order = t.constants := by
  obtain ⟨n, entries, constants, _, _, _, _, _, hb, rfl⟩ := LinearSystem.ofArrays_eq_ok h.checked
  exact (NumericArray.flattenColumn_vector _ n).symm.trans (congrArg (NumericArray.vector · n) hb)

end Holds

/-- What a system in memory is made from, and where it stands. -/
structure MadeFrom (base μ : Memory) (a b : NumericArray) (x : StoredSystem) : Prop where
  coefficients : x.coefficients.load μ = a
  constants : x.constants.load μ = b.flattenColumn
  coefficientsCopy : x.coefficients.IsCopy base μ
  constantsCopy : x.constants.IsCopy base μ

/-- **A system is made** from copies of two arrays as they are now. -/
theorem ofArrays_carriesOut (a b : StoredArray) (hb : b.address < μ.size) :
    CarriesOut μ (fun μ' x t => x.Holds μ' t ∧ x.MadeFrom μ μ' (a.load μ) (b.load μ))
      (LinearSystem.ofArrays (a.load μ) (b.load μ)) (ofArrays a b μ) := by
  let a' := a.copy μ
  let b' := b.copy a'.2
  have hfirst : μ.Extends a'.2 := StoredArray.extends_copy a μ
  have hsecond : a'.2.Extends b'.2 := StoredArray.extends_copy b a'.2
  have hgrown := hfirst.trans hsecond
  have ha'inside : a'.1.address < a'.2.size := (StoredArray.IsCopy.snapshot a (.refl μ)).inside
  have ha' : a'.1.load b'.2 = a.load μ :=
    (StoredArray.load_of_extends hsecond ha'inside).trans (StoredArray.load_copy a μ)
  have hb' : b'.1.load b'.2 = b.load μ :=
    (StoredArray.load_copy b a'.2).trans (StoredArray.load_of_extends hfirst hb)
  refine .modifyGet (.modifyGet (.get ?_))
  rw [ha', hb']
  cases hsystem : LinearSystem.ofArrays (a.load μ) (b.load μ) with
  | error fault => exact ⟨hgrown, rfl⟩
  | ok t =>
      have hcopy := (StoredArray.IsCopy.snapshot a (.refl μ)).mono hsecond
      have hcopy' := StoredArray.IsCopy.snapshot b hfirst
      have hconstants : b'.1.flattenColumn.readOnly.load b'.2 = (b.load μ).flattenColumn := by
        rw [StoredArray.load_readOnly, StoredArray.load_flattenColumn, hb']
      have haddress : b'.1.flattenColumn.readOnly.address = b'.1.address :=
        b'.1.flattenColumn_address
      refine ⟨hgrown, t, rfl, ⟨?_, rfl, hcopy.inside, ?_⟩, ha', hconstants, hcopy, rfl, ?_, ?_⟩
      · rw [hconstants, LinearSystem.ofArrays_flattenColumn]
        exact (congrArg (LinearSystem.ofArrays · _) ha').trans hsystem
      · exact haddress ▸ hcopy'.inside
      · exact haddress ▸ hcopy'.fresh
      · exact haddress ▸ hcopy'.inside

end StoredSystem

/-! ## Solutions -/

/-- A solution in memory shows a solution. The unknowns may be overwritten, and nothing else of the
solution stands in their block; the log is shown by copies that nobody may write to. -/
structure StoredSolution.Shows (base μ : Memory) (x : StoredSolution) (s : Solution) : Prop where
  report : x.report μ = s.report
  unknowns : x.unknowns.IsOwn base μ s.unknowns
  residuals : base.size ≤ x.residuals.address ∧ x.residuals.address < μ.size
  log : ShowsLog base μ x.trace s.trace
  apart : x.residuals.address ≠ x.unknowns.address
  logApart : ∀ r ∈ loggedArrays x.trace, r.address ≠ x.unknowns.address

theorem StoredSolution.Shows.of_extends {base base' μ : Memory} {x : StoredSolution} {s : Solution}
    (h : x.Shows base' μ s) (hbase : base.Extends base') : x.Shows base μ s where
  report := h.report
  unknowns := h.unknowns.of_extends hbase
  residuals := ⟨Nat.le_trans hbase.size_le h.residuals.1, h.residuals.2⟩
  log := h.log.of_extends hbase
  apart := h.apart
  logApart := h.logApart

namespace StoredSystem

variable {base μ μ' : Memory} {x : StoredSystem} {t : LinearSystem}

theorem solution_shows (h : x.Holds μ t) (hbase : base.Extends μ) (routines : MatrixRoutines)
    (tolerance : Binary64) {u : StoredArray} {unknowns : Vector Binary64 t.order} (effort : Effort)
    {trace : Option (List StoredStep)} {log : Log Binary64} (hu : u.IsOwn base μ unknowns)
    (htrace : ShowsLog base μ trace log.steps?)
    (hapart : ∀ r ∈ loggedArrays trace, r.address ≠ u.address) :
    CarriesOut base (StoredSolution.Shows base)
      (.ok (t.solution routines tolerance unknowns effort log))
      (x.solution routines tolerance u effort trace μ) := by
  have hmatrix := h.tableau
  have hconstants := h.vector
  obtain ⟨order, coefficients, constants⟩ := x
  obtain rfl : order = t.order := h.order
  have hvector : u.vector μ t.order = unknowns := by
    rw [StoredArray.vector, hu.load, NumericArray.vector_mk]
  refine .get (.modifyGet ?_)
  rw [hmatrix, hvector, hconstants]
  let residuals := routines.residuals t.matrix.entries unknowns t.constants
  let stored := NumericArray.store ⟨[t.order], residuals.toList⟩ μ
  have hgrown : μ.Extends stored.2 := NumericArray.extends_store _ μ
  have hunknowns : StoredArray.numbers stored.2 u = unknowns.toList :=
    congrArg NumericArray.entries (hu.mono hgrown).load
  have hresiduals : StoredArray.numbers stored.2 stored.1 = residuals.toList :=
    congrArg NumericArray.entries (NumericArray.load_store _ μ)
  have hshown := (htrace.mono hgrown).shown
  refine ⟨hbase.trans hgrown, _, rfl, ⟨?_, hu.mono hgrown, ⟨hbase.size_le, ?_⟩,
    htrace.mono hgrown, Nat.ne_of_gt hu.inside, hapart⟩⟩
  · show SolutionFields.mk _ _ (StoredArray.numbers stored.2 u)
      (StoredArray.numbers stored.2 stored.1) _ _ (shownLog stored.2 trace) = _
    rw [hunknowns, hresiduals, hshown]
    rfl
  · rw [NumericArray.size_store]
    exact Nat.lt_succ_self _

/-- **Solving a system in memory** gives what solving the system gives. -/
theorem solve_carriesOut (h : x.Holds μ t) (routines : MatrixRoutines) (method : Method)
    (tolerance : Binary64) (recording : Bool) :
    CarriesOut μ (StoredSolution.Shows μ) (t.solve routines method tolerance recording)
      (x.solve routines method tolerance recording μ) := by
  cases method with
  | gaussJordan =>
      have houtcome : t.solve routines .gaussJordan tolerance recording =
          (t.matrix.entries.gaussJordan t.constants tolerance (.start recording)).mapError
            Fault.ofBreakdown >>= fun r =>
              .ok (t.solution routines tolerance r.solution (.gaussJordan r.swaps r.pivots) r.log) := by
        rw [LinearSystem.solve]
        cases t.matrix.entries.gaussJordan t.constants tolerance (.start recording) <;> rfl
      have hreduced := x.coefficients.gaussJordan_carriesOut x.constants t.order tolerance recording μ
      rw [h.tableau, h.vector] at hreduced
      rw [houtcome, solve, h.order]
      refine hreduced.bind fun r μ' reduction hgrown hshows => ?_
      rw [← hshows.swaps, ← hshows.pivots]
      exact solution_shows (h.mono hgrown) hgrown routines tolerance _ hshows.solution hshows.log
        hshows.apart
  | cramer =>
      have houtcome : t.solve routines .cramer tolerance recording =
          (t.matrix.entries.cramer t.constants tolerance recording).mapError
            Fault.ofCramerFailure >>= fun r =>
              .ok (t.solution routines tolerance r.solution (.cramer (t.order + 1) r.determinant)
                r.log) := by
        rw [LinearSystem.solve]
        cases t.matrix.entries.cramer t.constants tolerance recording <;> rfl
      have hsolved := StoredArray.cramer_carriesOut h.coefficients h.shape h.constants tolerance
        recording
      rw [h.tableau, h.vector] at hsolved
      rw [houtcome, solve, h.order]
      refine hsolved.bind fun r μ' solution hgrown hshows => ?_
      rw [← hshows.determinant]
      exact solution_shows (h.mono hgrown) hgrown routines tolerance _ hshows.solution hshows.log
        hshows.apart

end StoredSystem

/-- **Solving in memory** gives what solving gives, if the system is the same. -/
theorem StoredSource.solve_carriesOut {μ : Memory} {source : StoredSource} {source' : SystemSource}
    {b : Value} (h : CarriesOut μ (fun μ' x t => x.Holds μ' t) (source'.resolve b)
      (source.resolve μ)) (routines : MatrixRoutines) (options : SolveOptions) :
    CarriesOut μ (StoredSolution.Shows μ) (RowReduction.solve routines source' b options)
      (source.solve routines options μ) := by
  rw [StoredSource.solve, RowReduction.solve]
  refine .bind_lift (.refl μ) fun tolerance _ => h.bind fun x μ' t hgrown hx =>
    .bind_lift hgrown fun method _ => .bind_lift hgrown fun recording _ => ?_
  exact (StoredSystem.solve_carriesOut hx routines method tolerance recording).weaken hgrown
    fun _ _ _ hshows => hshows.of_extends hgrown

/-! ## Determinants -/

/-- A determinant in memory shows a determinant, by copies that nobody may write to. -/
structure StoredDeterminant.Shows (base μ : Memory) (x : StoredDeterminant)
    (d : DeterminantSolution) : Prop where
  report : x.report μ = d.report
  triangular : x.triangular.IsCopy base μ
  log : ShowsLog base μ x.trace d.trace

/-- **A determinant in memory** is the determinant of the numbers in the array. -/
theorem StoredArray.determinant_carriesOut {μ : Memory} {a : StoredArray} {source : MatrixSource}
    (hsource : source.resolve = SquareMatrix.ofArray (a.load μ)) (options : DeterminantOptions) :
    CarriesOut μ (StoredDeterminant.Shows μ) (RowReduction.determinant source options)
      (a.determinant options μ) := by
  have hgrown := StoredArray.extends_copy a μ
  rw [StoredArray.determinant, RowReduction.determinant, hsource]
  refine .bind_lift (.refl μ) fun tolerance _ => .modifyGet (.get ?_)
  rw [StoredArray.load_copy]
  refine .bind_lift hgrown fun m hm => .bind_lift hgrown fun recording _ => .modifyGet ?_
  let a' := (a.copy μ).1.readOnly
  let T := a'.triangulate m.order m.order tolerance recording (a.copy μ).2
  have htableau : a'.tableau (a.copy μ).2 m.order m.order = m.entries := by
    obtain ⟨n, entries, _, _, _, ha, rfl⟩ := SquareMatrix.ofArray_eq_ok hm
    rw [StoredArray.tableau, StoredArray.load_readOnly, StoredArray.load_copy, ha]
    rfl
  obtain ⟨hreduced, hshows⟩ : (a.copy μ).2.Extends T.2 ∧ T.1.Shows (a.copy μ).2 T.2 _ :=
    a'.triangulate_shows m.order m.order tolerance recording (a.copy μ).2
  rw [htableau] at hshows
  refine ⟨hgrown.trans hreduced, _, rfl, ?_, hshows.copy.of_extends hgrown,
    hshows.log.of_extends hgrown⟩
  show DeterminantFields.mk _ _ T.1.value T.1.sign T.1.swaps T.1.pivots
    (StoredArray.rows T.2 T.1.triangular) T.1.singularColumn (shownLog T.2 T.1.steps?) = _
  rw [hshows.value, hshows.sign, hshows.swaps, hshows.pivots, hshows.triangular,
    hshows.singularColumn, hshows.log.shown]
  rfl

end RowReduction
