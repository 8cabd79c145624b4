import RowReduction.Proofs.Memory.Systems
import RowReduction.Proofs.Session.Contents

/-!
Sessions in memory and what they show. The caller writes to three arrays: the matrix, the right-hand
side and the unknowns of the last solution. Each of them has a block of its own, and whatever else a
session holds stands in other blocks, so a command in memory changes what the session shows as it
would change plain values.
-/
namespace RowReduction

/-! ## What results show -/

section Reports

variable {μ μ' : Memory}

/-- What a solution shows of its other arrays does not depend on the block of the unknowns. -/
theorem StoredSolution.report_congr {x : StoredSolution}
    (hresiduals : μ'.read x.residuals.address = μ.read x.residuals.address)
    (hlog : ∀ r ∈ loggedArrays x.trace, μ'.read r.address = μ.read r.address) :
    x.report μ' = { x.report μ with unknowns := StoredArray.numbers μ' x.unknowns } := by
  have htrace : shownLog μ' x.trace = shownLog μ x.trace := shownLog_congr hlog
  show SolutionFields.mk _ _ _ (μ'.read x.residuals.address) _ _ (shownLog μ' x.trace) = _
  rw [hresiduals, htrace]
  rfl

theorem StoredDeterminant.report_congr {d : StoredDeterminant}
    (htriangular : μ'.read d.triangular.address = μ.read d.triangular.address)
    (hlog : ∀ r ∈ loggedArrays d.trace, μ'.read r.address = μ.read r.address) :
    d.report μ' = d.report μ := by
  have htrace : shownLog μ' d.trace = shownLog μ d.trace := shownLog_congr hlog
  have hrows : StoredArray.rows μ' d.triangular = StoredArray.rows μ d.triangular :=
    StoredArray.rows_congr htriangular
  show DeterminantFields.mk _ _ _ _ _ _ (StoredArray.rows μ' d.triangular) _
    (shownLog μ' d.trace) = _
  rw [hrows, htrace]
  rfl

end Reports

namespace Session

/-- What a session shows. -/
def contents (s : Session) : Contents where
  coefficients := s.coefficients.load s.memory
  constants := s.constants.load s.memory
  system := s.system.map fun x => (x.coefficients.load s.memory, x.constants.load s.memory)
  solution := s.solution.map (·.report s.memory)
  determinant := s.determinant.map (·.report s.memory)

theorem contents_system (s : Session) : s.contents.system =
    s.system.map fun x => (x.coefficients.load s.memory, x.constants.load s.memory) := rfl

theorem contents_solution (s : Session) :
    s.contents.solution = s.solution.map (·.report s.memory) := rfl

theorem contents_determinant (s : Session) :
    s.contents.determinant = s.determinant.map (·.report s.memory) := rfl

/-! ## Separation -/

/-- The arrays that a caller may write to. -/
def writable (s : Session) : List StoredArray :=
  s.coefficients :: s.constants :: s.solution.toList.map (·.unknowns)

/-- The arrays that nobody may write to: those of the system, of the logs and of the determinant. -/
def guarded (s : Session) : List StoredArray :=
  s.system.toList.flatMap (fun x => [x.coefficients, x.constants]) ++
  s.solution.toList.flatMap (fun x => loggedArrays x.trace) ++
  s.determinant.toList.flatMap fun d => d.triangular :: loggedArrays d.trace

/-- The arrays that a caller does not write to. -/
def fixed (s : Session) : List StoredArray :=
  s.guarded ++ s.solution.toList.map (·.residuals)

/-- **The arrays of a session are separated**: those that a caller may write to stand in blocks of
their own, and nothing else stands in these. -/
structure Separated (s : Session) : Prop where
  inside : ∀ r ∈ s.writable ++ s.fixed, r.address < s.memory.size
  writeable : ∀ r ∈ s.writable, r.writeable = true
  readOnly : ∀ r ∈ s.guarded, r.writeable = false
  different : s.coefficients.address ≠ s.constants.address
  unknownsApart : ∀ x, s.solution = some x →
    s.coefficients.address ≠ x.unknowns.address ∧ s.constants.address ≠ x.unknowns.address
  apart : ∀ w ∈ s.writable, ∀ r ∈ s.fixed, w.address ≠ r.address
  system : ∀ x, s.system = some x → ∃ t, x.Holds s.memory t
  unknowns : ∀ x, s.solution = some x → x.unknowns.shape = [x.order]

variable {s : Session} {μ : Memory}

/-! ### Where the arrays are listed -/

theorem mem_guarded {r : StoredArray} : r ∈ s.guarded ↔
    (∃ x, s.system = some x ∧ (r = x.coefficients ∨ r = x.constants)) ∨
    (∃ x, s.solution = some x ∧ r ∈ loggedArrays x.trace) ∨
    ∃ d, s.determinant = some d ∧ (r = d.triangular ∨ r ∈ loggedArrays d.trace) := by
  simp [guarded]

theorem mem_fixed {r : StoredArray} :
    r ∈ s.fixed ↔ r ∈ s.guarded ∨ ∃ x, s.solution = some x ∧ r = x.residuals := by
  simp [fixed, eq_comm]

theorem mem_writable {r : StoredArray} : r ∈ s.writable ↔
    r = s.coefficients ∨ r = s.constants ∨ ∃ x, s.solution = some x ∧ r = x.unknowns := by
  simp [writable, eq_comm]

theorem mem_fixed_of_guarded {r : StoredArray} (h : r ∈ s.guarded) : r ∈ s.fixed :=
  mem_fixed.mpr (.inl h)

theorem mem_writable_of_unknowns {x : StoredSolution} (h : s.solution = some x) :
    x.unknowns ∈ s.writable :=
  mem_writable.mpr (.inr (.inr ⟨x, h, rfl⟩))

/-! ### What changes when memory changes -/

/-- What a session shows where the fixed arrays have not been written to. -/
theorem contents_of_fixed (h : ∀ r ∈ s.fixed, μ.read r.address = s.memory.read r.address) :
    ({ s with memory := μ } : Session).contents =
      { s.contents with
        coefficients := s.coefficients.load μ
        constants := s.constants.load μ
        solution := s.solution.map fun x =>
          { x.report s.memory with unknowns := StoredArray.numbers μ x.unknowns } } := by
  have hguarded : ∀ r ∈ s.guarded, μ.read r.address = s.memory.read r.address := fun r hr =>
    h r (mem_fixed_of_guarded hr)
  have hsystem : (s.system.map fun x => (x.coefficients.load μ, x.constants.load μ)) =
      s.system.map fun x => (x.coefficients.load s.memory, x.constants.load s.memory) :=
    Option.map_congr fun x hx => congrArg₂ Prod.mk
      (StoredArray.load_congr (hguarded _ (mem_guarded.mpr (.inl ⟨x, hx, .inl rfl⟩))))
      (StoredArray.load_congr (hguarded _ (mem_guarded.mpr (.inl ⟨x, hx, .inr rfl⟩))))
  have hsolution : s.solution.map (·.report μ) = s.solution.map fun x =>
      { x.report s.memory with unknowns := StoredArray.numbers μ x.unknowns } :=
    Option.map_congr fun x hx => StoredSolution.report_congr
      (h _ (mem_fixed.mpr (.inr ⟨x, hx, rfl⟩)))
      fun r hr => hguarded r (mem_guarded.mpr (.inr (.inl ⟨x, hx, hr⟩)))
  have hdeterminant : s.determinant.map (·.report μ) = s.determinant.map (·.report s.memory) :=
    Option.map_congr fun d hd => StoredDeterminant.report_congr
      (hguarded _ (mem_guarded.mpr (.inr (.inr ⟨d, hd, .inl rfl⟩))))
      fun r hr => hguarded r (mem_guarded.mpr (.inr (.inr ⟨d, hd, .inr hr⟩)))
  simp only [contents, hsystem, hsolution, hdeterminant]

/-- The last solution shows the same where its unknowns have not been written to either. -/
theorem solution_of_unknowns
    (h : ∀ x, s.solution = some x → μ.read x.unknowns.address = s.memory.read x.unknowns.address) :
    (s.solution.map fun x =>
      { x.report s.memory with unknowns := StoredArray.numbers μ x.unknowns }) =
        s.contents.solution :=
  Option.map_congr fun x hx => by
    rw [StoredArray.numbers_congr (h x hx)]
    rfl

namespace Separated

theorem writable_inside (h : s.Separated) {w : StoredArray} (hw : w ∈ s.writable) :
    w.address < s.memory.size :=
  h.inside w (List.mem_append_left _ hw)

theorem fixed_inside (h : s.Separated) {r : StoredArray} (hr : r ∈ s.fixed) :
    r.address < s.memory.size :=
  h.inside r (List.mem_append_right _ hr)

theorem coefficients_inside (h : s.Separated) : s.coefficients.address < s.memory.size :=
  h.writable_inside (mem_writable.mpr (.inl rfl))

theorem constants_inside (h : s.Separated) : s.constants.address < s.memory.size :=
  h.writable_inside (mem_writable.mpr (.inr (.inl rfl)))

/-- Memory may grow. -/
theorem mono (h : s.Separated) (hμ : s.memory.Extends μ) :
    ({ s with memory := μ } : Session).Separated where
  inside r hr := Nat.lt_of_lt_of_le (h.inside r hr) hμ.size_le
  writeable := h.writeable
  readOnly := h.readOnly
  different := h.different
  unknownsApart := h.unknownsApart
  apart := h.apart
  system x hx := (h.system x hx).imp fun _ ht => ht.mono hμ
  unknowns := h.unknowns

/-- **What is held does not change while memory grows.** -/
theorem contents_mono (h : s.Separated) (hμ : s.memory.Extends μ) :
    ({ s with memory := μ } : Session).contents = s.contents := by
  rw [contents_of_fixed fun r hr => hμ.read_eq _ (h.fixed_inside hr),
    StoredArray.load_of_extends hμ h.coefficients_inside,
    StoredArray.load_of_extends hμ h.constants_inside,
    solution_of_unknowns fun x hx => hμ.read_eq _ (h.writable_inside (mem_writable_of_unknowns hx))]
  rfl

/-! ### Writing -/

section Writing

variable {w : StoredArray} (h : s.Separated) (hw : w ∈ s.writable) (entries : List Binary64)

include h hw

/-- An array that may be written to can be overwritten. -/
theorem write : ({ s with memory := w.fill entries s.memory } : Session).Separated where
  inside r hr := by
    rw [StoredArray.fill, Memory.size_overwrite]
    exact h.inside r hr
  writeable := h.writeable
  readOnly := h.readOnly
  different := h.different
  unknownsApart := h.unknownsApart
  apart := h.apart
  system x hx := by
    obtain ⟨t, ht⟩ := h.system x hx
    have hread : ∀ r ∈ s.guarded, (w.fill entries s.memory).read r.address =
        s.memory.read r.address := fun r hr =>
      StoredArray.read_fill_of_ne (h.apart w hw r (mem_fixed_of_guarded hr))
    refine ⟨t, ht.congr ?_ (hread _ (mem_guarded.mpr (.inl ⟨x, hx, .inl rfl⟩)))
      (hread _ (mem_guarded.mpr (.inl ⟨x, hx, .inr rfl⟩)))⟩
    rw [StoredArray.fill, Memory.size_overwrite]
  unknowns := h.unknowns

/-- Only the arrays that may be written to show that one of them has been overwritten. -/
theorem contents_write : ({ s with memory := w.fill entries s.memory } : Session).contents =
    { s.contents with
      coefficients := s.coefficients.load (w.fill entries s.memory)
      constants := s.constants.load (w.fill entries s.memory)
      solution := s.solution.map fun x =>
        { x.report s.memory with
          unknowns := StoredArray.numbers (w.fill entries s.memory) x.unknowns } } :=
  contents_of_fixed fun r hr => StoredArray.read_fill_of_ne (h.apart w hw r hr)

end Writing

/-! ### Results -/

/-- A new system or a new determinant stands in new blocks. -/
theorem keepGuarded {s' : Session} (h : s.Separated) (hμ : s.memory.Extends s'.memory)
    (hcoefficients : s'.coefficients = s.coefficients) (hconstants : s'.constants = s.constants)
    (hsolution : s'.solution = s.solution)
    (hsystem : ∀ x, s'.system = some x → ∃ t, x.Holds s'.memory t)
    (hguarded : ∀ r ∈ s'.guarded, r ∈ s.guarded ∨ r.IsCopy s.memory s'.memory) :
    s'.Separated := by
  have hwritable : s'.writable = s.writable := by
    rw [writable, writable, hcoefficients, hconstants, hsolution]
  have hfixed : ∀ r ∈ s'.fixed, r ∈ s.fixed ∨
      (s.memory.size ≤ r.address ∧ r.address < s'.memory.size) := by
    intro r hr
    rcases mem_fixed.mp hr with hr | ⟨x, hx, rfl⟩
    · exact (hguarded r hr).imp mem_fixed_of_guarded fun hcopy => ⟨hcopy.fresh, hcopy.inside⟩
    · exact .inl (mem_fixed.mpr (.inr ⟨x, hsolution ▸ hx, rfl⟩))
  constructor
  case inside =>
    intro r hr
    rw [hwritable] at hr
    rcases List.mem_append.mp hr with hr | hr
    · exact Nat.lt_of_lt_of_le (h.writable_inside hr) hμ.size_le
    · rcases hfixed r hr with hold | hnew
      · exact Nat.lt_of_lt_of_le (h.fixed_inside hold) hμ.size_le
      · exact hnew.2
  case writeable => exact hwritable ▸ h.writeable
  case readOnly => exact fun r hr => (hguarded r hr).elim (h.readOnly r) (·.readOnly)
  case different =>
    rw [hcoefficients, hconstants]
    exact h.different
  case unknownsApart =>
    rw [hcoefficients, hconstants, hsolution]
    exact h.unknownsApart
  case apart =>
    intro w hw r hr
    rw [hwritable] at hw
    rcases hfixed r hr with hold | hnew
    · exact h.apart w hw r hold
    · exact Nat.ne_of_lt (Nat.lt_of_lt_of_le (h.writable_inside hw) hnew.1)
  case system => exact hsystem
  case unknowns => exact hsolution ▸ h.unknowns

theorem keepSystem (h : s.Separated) (hμ : s.memory.Extends μ) {x : StoredSystem} {t : LinearSystem}
    {a b : NumericArray} (hx : x.Holds μ t) (hmade : x.MadeFrom s.memory μ a b) :
    ({ s with memory := μ, system := some x } : Session).Separated := by
  refine h.keepGuarded hμ rfl rfl rfl (fun x' hx' => ⟨t, Option.some.inj hx' ▸ hx⟩) fun r hr => ?_
  rcases mem_guarded.mp hr with ⟨x', hx', hr⟩ | hr
  · cases hx'
    right
    rcases hr with rfl | rfl
    · exact hmade.coefficientsCopy
    · exact hmade.constantsCopy
  · exact .inl (mem_guarded.mpr (.inr hr))

theorem keepDeterminant (h : s.Separated) (hμ : s.memory.Extends μ) {x : StoredDeterminant}
    {d : DeterminantSolution} (hx : x.Shows s.memory μ d) :
    ({ s with memory := μ, determinant := some x } : Session).Separated := by
  refine h.keepGuarded hμ rfl rfl rfl (fun y hy => (h.system y hy).imp fun _ ht => ht.mono hμ)
    fun r hr => ?_
  rcases mem_guarded.mp hr with hr | hr | ⟨x', hx', hr⟩
  · exact .inl (mem_guarded.mpr (.inl hr))
  · exact .inl (mem_guarded.mpr (.inr (.inl hr)))
  · cases hx'
    right
    rcases hr with rfl | hr
    · exact hx.triangular
    · exact hx.log.copies r hr

section NewSolution

variable {x : StoredSolution} {y : Solution} {r w : StoredArray}

/-- Next to a new solution, a guarded array is one that was guarded or one of the new log. -/
theorem mem_guarded_newSolution
    (hr : r ∈ ({ s with memory := μ, solution := some x } : Session).guarded) :
    r ∈ s.guarded ∨ r ∈ loggedArrays x.trace := by
  rcases mem_guarded.mp hr with hr | ⟨x', hx', hr⟩ | hr
  · exact .inl (mem_guarded.mpr (.inl hr))
  · cases hx'
    exact .inr hr
  · exact .inl (mem_guarded.mpr (.inr (.inr hr)))

/-- A fixed array is one that was fixed, or it stands in a new block apart from the unknowns. -/
theorem mem_fixed_newSolution (hx : x.Shows s.memory μ y)
    (hr : r ∈ ({ s with memory := μ, solution := some x } : Session).fixed) :
    r ∈ s.fixed ∨
      s.memory.size ≤ r.address ∧ r.address < μ.size ∧ r.address ≠ x.unknowns.address := by
  rcases mem_fixed.mp hr with hr | ⟨x', hx', rfl⟩
  · refine (mem_guarded_newSolution hr).imp mem_fixed_of_guarded fun hlog => ?_
    exact ⟨(hx.log.copies r hlog).fresh, (hx.log.copies r hlog).inside, hx.logApart r hlog⟩
  · cases hx'
    exact .inr ⟨hx.residuals.1, hx.residuals.2, hx.apart⟩

/-- A writable array is one that was writable, or it holds the new unknowns. -/
theorem mem_writable_newSolution
    (hw : w ∈ ({ s with memory := μ, solution := some x } : Session).writable) :
    w ∈ s.writable ∨ w = x.unknowns := by
  rcases mem_writable.mp hw with hw | hw | ⟨x', hx', hw⟩
  · exact .inl (mem_writable.mpr (.inl hw))
  · exact .inl (mem_writable.mpr (.inr (.inl hw)))
  · cases hx'
    exact .inr hw

/-- A new solution stands in new blocks, and its unknowns in one of their own. -/
theorem keepSolution (h : s.Separated) (hμ : s.memory.Extends μ) (hx : x.Shows s.memory μ y) :
    ({ s with memory := μ, solution := some x } : Session).Separated := by
  have hbefore {r : StoredArray} (hr : r.address < s.memory.size) :
      r.address ≠ x.unknowns.address :=
    Nat.ne_of_lt (Nat.lt_of_lt_of_le hr hx.unknowns.fresh)
  constructor
  case inside =>
    intro r hr
    rcases List.mem_append.mp hr with hr | hr
    · rcases mem_writable_newSolution hr with hold | rfl
      · exact Nat.lt_of_lt_of_le (h.writable_inside hold) hμ.size_le
      · exact hx.unknowns.inside
    · rcases mem_fixed_newSolution hx hr with hold | ⟨_, hinside, _⟩
      · exact Nat.lt_of_lt_of_le (h.fixed_inside hold) hμ.size_le
      · exact hinside
  case writeable =>
    intro w hw
    rcases mem_writable_newSolution hw with hold | rfl
    · exact h.writeable w hold
    · exact hx.unknowns.writeable
  case readOnly =>
    intro r hr
    exact (mem_guarded_newSolution hr).elim (h.readOnly r) fun hlog =>
      (hx.log.copies r hlog).readOnly
  case different => exact h.different
  case unknownsApart =>
    intro x' hx'
    cases hx'
    exact ⟨hbefore h.coefficients_inside, hbefore h.constants_inside⟩
  case apart =>
    intro w hw r hr
    rcases mem_writable_newSolution hw with hw | rfl
    · rcases mem_fixed_newSolution hx hr with hr | ⟨hfresh, _, _⟩
      · exact h.apart w hw r hr
      · exact Nat.ne_of_lt (Nat.lt_of_lt_of_le (h.writable_inside hw) hfresh)
    · rcases mem_fixed_newSolution hx hr with hr | ⟨_, _, hapart⟩
      · exact (hbefore (h.fixed_inside hr)).symm
      · exact hapart.symm
  case system => exact fun y hy => (h.system y hy).imp fun _ ht => ht.mono hμ
  case unknowns =>
    intro x' hx'
    cases hx'
    have horder : x.order = y.system.order := congrArg SolutionFields.order hx.report
    rw [horder]
    exact congrArg NumericArray.shape hx.unknowns.load

end NewSolution

end Separated

end Session

end RowReduction
