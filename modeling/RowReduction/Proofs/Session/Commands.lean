import RowReduction.Proofs.Session.Separation

/-!
What commands do. One command of a session in memory does to what the session shows what the same
command does to plain values, and keeps the arrays of the session separated; so do all commands of a
run.
-/
namespace RowReduction

/-! ## Arrays of a log -/

namespace Step

variable {τ α : Type} {r : τ} {steps : List (Step τ τ α)} {s : Step τ τ α}

theorem mem_arraysOf (hs : s ∈ steps) (hr : r ∈ s.arrays) : r ∈ arraysOf steps := by
  rw [arraysOf_eq_flatMap]
  exact List.mem_flatMap.mpr ⟨s, hs, hr⟩

theorem mem_arrays_of_tableau? (h : s.tableau? = some r) : r ∈ s.arrays := by
  cases s <;> simp_all [tableau?, arrays]

theorem mem_arrays_of_solution? (h : s.solution? = some r) : r ∈ s.arrays := by
  cases s <;> simp_all [solution?, arrays]

/-- The arrays of a step are also those of its own log. -/
theorem mem_arrays_of_steps (h : r ∈ arraysOf s.steps) : r ∈ s.arrays := by
  cases s <;> simp_all [Step.steps, arrays, arraysOf]

theorem mem_arraysOf_of_tableauAt? {path : List Nat} (h : tableauAt? path steps = some r) :
    r ∈ arraysOf steps := by
  induction path generalizing steps with
  | nil => cases h
  | cons i path ih =>
      cases path with
      | nil =>
          obtain ⟨s, hs, hr⟩ := Option.bind_eq_some_iff.mp h
          exact mem_arraysOf (List.mem_of_getElem? hs) (mem_arrays_of_tableau? hr)
      | cons j path =>
          obtain ⟨s, hs, hr⟩ := Option.bind_eq_some_iff.mp h
          exact mem_arraysOf (List.mem_of_getElem? hs) (mem_arrays_of_steps (ih hr))

end Step

/-! ## Entries -/

theorem NumericArray.shape_of_setEntry {a a' : NumericArray} {indices : List Int} {offset : Nat}
    {v : Value} (h : a.setEntry indices offset v = .ok a') : a'.shape = a.shape := by
  obtain ⟨place, _, h⟩ := eq_ok_of_bind_eq_ok h
  obtain ⟨x, _, h⟩ := eq_ok_of_bind_eq_ok h
  cases h
  rfl

namespace StoredArray

variable {r : StoredArray} (indices : List Int) (offset : Nat) (v : Value) (μ : Memory)

theorem setEntry_of_readOnly (h : r.writeable = false) :
    r.setEntry indices offset v μ = .error .readOnly μ := by
  obtain ⟨address, shape, writeable⟩ := r
  obtain rfl : writeable = false := h
  rfl

theorem setEntry_of_writeable (h : r.writeable = true) :
    r.setEntry indices offset v μ = match (r.load μ).setEntry indices offset v with
      | .error fault => .error fault μ
      | .ok a => .ok () (r.fill a.entries μ) := by
  obtain ⟨address, shape, writeable⟩ := r
  obtain rfl : writeable = true := h
  show (match (load _ μ).setEntry indices offset v with
    | .error fault => throw fault
    | .ok a => modify (fill _ a.entries) : EStateM Fault Memory Unit) μ = _
  cases (load _ μ).setEntry indices offset v <;> rfl

end StoredArray

namespace Session

variable {s : Session}

/-! ## Commands -/

/-- **A command in memory has done what a command does to plain values**: it has failed with the same
fault, and then memory may have grown and nothing else has happened; or it has given the same answer,
and the session shows the new contents. -/
def Follows (s : Session) (outcome : Except Fault (Contents × Reply)) :
    EStateM.Result Fault Session Reply → Prop
  | .ok reply s' => s'.Separated ∧ outcome = .ok (s'.contents, reply)
  | .error fault s' =>
    outcome = .error fault ∧ ∃ μ, s.memory.Extends μ ∧ s' = { s with memory := μ }

namespace Follows

variable {outcome : Except Fault (Contents × Reply)}

/-- What is done in memory, and then with what has been found there. -/
theorem inMemory {α β : Type} {action : EStateM Fault Memory α}
    {next : α → EStateM Fault Session Reply} {found : Except Fault β}
    {continuation : β → Except Fault (Contents × Reply)} {shows : Memory → α → β → Prop}
    (h : CarriesOut s.memory shows found (action s.memory))
    (hnext : ∀ x μ y, s.memory.Extends μ → found = .ok y → shows μ x y →
      s.Follows (continuation y) (next x { s with memory := μ })) :
    s.Follows (found >>= continuation) ((Session.inMemory action >>= next) s) := by
  show s.Follows _ (EStateM.bind (Session.inMemory action) next s)
  rw [EStateM.bind, Session.inMemory]
  cases hresult : action s.memory with
  | error fault μ =>
      rw [hresult] at h
      obtain ⟨hgrown, rfl⟩ := h
      exact ⟨rfl, μ, hgrown, rfl⟩
  | ok x μ =>
      rw [hresult] at h
      obtain ⟨hgrown, y, rfl, hshows⟩ := h
      exact hnext x μ y hgrown rfl hshows

theorem get {next : Session → EStateM Fault Session Reply} (h : s.Follows outcome (next s s)) :
    s.Follows outcome ((MonadState.get >>= next : EStateM Fault Session Reply) s) := h

/-- Writing to an array that may be written to. -/
theorem write {w : StoredArray} {indices : List Int} {offset : Nat} {v : Value}
    {continuation : NumericArray → Except Fault (Contents × Reply)} (h : s.Separated)
    (hw : w ∈ s.writable)
    (hcontinue : ∀ a : NumericArray, a.shape = w.shape → continuation a =
      .ok (({ s with memory := w.fill a.entries s.memory } : Session).contents, .array a)) :
    s.Follows ((w.load s.memory).setEntry indices offset v >>= continuation)
      ((do
        Session.inMemory (w.setEntry indices offset v)
        return .array (w.load (← MonadState.get).memory) : EStateM Fault Session Reply) s) := by
  show s.Follows _ (EStateM.bind (Session.inMemory (w.setEntry indices offset v)) _ s)
  rw [EStateM.bind, Session.inMemory,
    StoredArray.setEntry_of_writeable indices offset v s.memory (h.writeable w hw)]
  cases hset : (w.load s.memory).setEntry indices offset v with
  | error fault => exact ⟨rfl, s.memory, .refl _, rfl⟩
  | ok a =>
      have hshape : a.shape = w.shape := NumericArray.shape_of_setEntry hset
      have hload : w.load (w.fill a.entries s.memory) = a := by
        rw [StoredArray.load_fill_self (h.writable_inside hw), ← hshape]
      refine ⟨h.write hw a.entries, (hcontinue a hshape).trans ?_⟩
      exact congrArg (fun a => Except.ok (_, Reply.array a)) hload.symm

end Follows

/-! ## Writing -/

namespace Separated

variable (h : s.Separated)

include h

/-- Overwriting the matrix changes the matrix. -/
theorem contents_write_coefficients {a : NumericArray} (ha : a.shape = s.coefficients.shape) :
    ({ s with memory := s.coefficients.fill a.entries s.memory } : Session).contents =
      { s.contents with coefficients := a } := by
  rw [h.contents_write (mem_writable.mpr (.inl rfl)),
    solution_of_unknowns fun x hx => StoredArray.read_fill_of_ne (h.unknownsApart x hx).1,
    StoredArray.load_fill_self h.coefficients_inside, StoredArray.load_fill_of_ne h.different, ← ha]
  rfl

/-- Overwriting the right-hand side changes the right-hand side. -/
theorem contents_write_constants {b : NumericArray} (hb : b.shape = s.constants.shape) :
    ({ s with memory := s.constants.fill b.entries s.memory } : Session).contents =
      { s.contents with constants := b } := by
  rw [h.contents_write (mem_writable.mpr (.inr (.inl rfl))),
    solution_of_unknowns fun x hx => StoredArray.read_fill_of_ne (h.unknownsApart x hx).2,
    StoredArray.load_fill_self h.constants_inside, StoredArray.load_fill_of_ne h.different.symm, ← hb]
  rfl

/-- Overwriting the unknowns changes the unknowns that the last solution shows. -/
theorem contents_write_unknowns {x : StoredSolution} (hx : s.solution = some x)
    (entries : List Binary64) :
    ({ s with memory := x.unknowns.fill entries s.memory } : Session).contents =
      { s.contents with solution := some { x.report s.memory with unknowns := entries } } := by
  have hmem : x.unknowns ∈ s.writable := mem_writable_of_unknowns hx
  have hnumbers : StoredArray.numbers (x.unknowns.fill entries s.memory) x.unknowns = entries :=
    Memory.read_overwrite_self (h.writable_inside hmem)
  rw [h.contents_write hmem, StoredArray.load_fill_of_ne (h.unknownsApart x hx).1.symm,
    StoredArray.load_fill_of_ne (h.unknownsApart x hx).2.symm, hx, Option.map_some, hnumbers]
  rfl

end Separated

/-- Whether nobody may write to a target. -/
def Target.isGuarded : Target → Bool
  | .coefficients | .constants | .unknowns => false
  | _ => true

/-- What a guarded target means is a guarded array. -/
theorem mem_guarded_of_find? {target : Target} (htarget : target.isGuarded = true)
    {r : StoredArray} (h : s.find? target = some r) : r ∈ s.guarded := by
  cases target with
  | coefficients | constants | unknowns => cases htarget
  | systemMatrix =>
      obtain ⟨x, hx, rfl⟩ := Option.map_eq_some_iff.mp h
      exact mem_guarded.mpr (.inl ⟨x, hx, .inl rfl⟩)
  | systemConstants =>
      obtain ⟨x, hx, rfl⟩ := Option.map_eq_some_iff.mp h
      exact mem_guarded.mpr (.inl ⟨x, hx, .inr rfl⟩)
  | triangular =>
      obtain ⟨d, hd, rfl⟩ := Option.map_eq_some_iff.mp h
      exact mem_guarded.mpr (.inr (.inr ⟨d, hd, .inl rfl⟩))
  | traceTableau path =>
      obtain ⟨steps, hsteps, hr⟩ := Option.bind_eq_some_iff.mp h
      obtain ⟨x, hx, htrace⟩ := Option.bind_eq_some_iff.mp hsteps
      refine mem_guarded.mpr (.inr (.inl ⟨x, hx, ?_⟩))
      rw [htrace]
      exact Step.mem_arraysOf_of_tableauAt? hr
  | traceSolution i =>
      obtain ⟨step, hstep, hr⟩ := Option.bind_eq_some_iff.mp h
      obtain ⟨steps, hsteps, hi⟩ := Option.bind_eq_some_iff.mp hstep
      obtain ⟨x, hx, htrace⟩ := Option.bind_eq_some_iff.mp hsteps
      refine mem_guarded.mpr (.inr (.inl ⟨x, hx, ?_⟩))
      rw [htrace]
      exact Step.mem_arraysOf (List.mem_of_getElem? hi) (Step.mem_arrays_of_solution? hr)

/-! ## What commands do -/

variable (routines : MatrixRoutines)

/-- Writing to an entry. -/
theorem setEntry_follows (h : s.Separated) (target : Target) (indices : List Int) (offset : Nat)
    (v : Value) : s.Follows (s.contents.write target indices offset v)
      (act routines (.setEntry target indices offset v) s) := by
  cases htarget : target.isGuarded with
  | true =>
      have hcontents : s.contents.write target indices offset v = .error .readOnly := by
        cases target <;> first | rfl | cases htarget
      have habsence : target.absence = .readOnly := by
        cases target <;> first | rfl | cases htarget
      rw [hcontents]
      refine .get ?_
      cases hfind : s.find? target with
      | none => exact ⟨congrArg Except.error habsence.symm, s.memory, .refl _, rfl⟩
      | some r =>
          have hreadOnly := h.readOnly r (mem_guarded_of_find? htarget hfind)
          show s.Follows _ (EStateM.bind (Session.inMemory (r.setEntry indices offset v)) _ s)
          rw [EStateM.bind, Session.inMemory,
            StoredArray.setEntry_of_readOnly indices offset v s.memory hreadOnly]
          exact ⟨rfl, s.memory, .refl _, rfl⟩
  | false =>
      cases target with
      | coefficients =>
          exact .get (.write h (mem_writable.mpr (.inl rfl)) fun a ha => by
            rw [h.contents_write_coefficients ha]
            rfl)
      | constants =>
          exact .get (.write h (mem_writable.mpr (.inr (.inl rfl))) fun b hb => by
            rw [h.contents_write_constants hb]
            rfl)
      | unknowns =>
          refine .get ?_
          cases hx : s.solution with
          | none =>
              rw [Contents.write, contents_solution, find?, hx]
              exact ⟨rfl, s.memory, .refl _, rfl⟩
          | some x =>
              have hload : Contents.unknowns (x.report s.memory) = x.unknowns.load s.memory := by
                rw [StoredArray.load, h.unknowns x hx]
                rfl
              rw [Contents.write, contents_solution, find?, hx]
              dsimp only [Option.map_some]
              rw [hload]
              exact .write h (mem_writable_of_unknowns hx) fun u _ => by
                rw [h.contents_write_unknowns hx]
                rfl
      | _ => cases htarget

/-- A solution that has been found becomes the last one. -/
theorem keepSolution_follows (h : s.Separated) {μ : Memory} (hμ : s.memory.Extends μ)
    {x : StoredSolution} {y : Solution} (hx : x.Shows s.memory μ y) :
    s.Follows (.ok ({ s.contents with solution := some y.report }, .solution y.report))
      (keepSolution x { s with memory := μ }) := by
  have hcontents : ({ s with memory := μ, solution := some x } : Session).contents =
      { s.contents with solution := some (x.report μ) } :=
    congrArg (fun c : Contents => { c with solution := some (x.report μ) }) (h.contents_mono hμ)
  refine ⟨h.keepSolution hμ hx, ?_⟩
  rw [← hx.report, ← hcontents]

/-- The system is solved as it was built. -/
theorem solveSystem_carriesOut (h : s.Separated) (options : SolveOptions) :
    CarriesOut s.memory (StoredSolution.Shows s.memory) (s.contents.solveSystem routines options)
      ((StoredSource.system s.system).solve routines options s.memory) := by
  rw [Contents.solveSystem, contents_system]
  cases hx : s.system with
  | none =>
      have hresolve : CarriesOut s.memory (fun μ x t => x.Holds μ t)
          ((SystemSource.value .none).resolve .none)
          ((StoredSource.system none).resolve s.memory) :=
        ⟨.refl _, rfl⟩
      exact StoredSource.solve_carriesOut hresolve routines options
  | some x =>
      obtain ⟨t, ht⟩ := h.system x hx
      have hresolve : CarriesOut s.memory (fun μ x t => x.Holds μ t)
          ((SystemSource.value (x.coefficients.load s.memory).toValue).resolve
            (x.constants.load s.memory).toValue)
          ((StoredSource.system (some x)).resolve s.memory) :=
        ⟨.refl _, t, (SystemSource.resolve_toValue _ _).trans ht.checked, ht⟩
      exact StoredSource.solve_carriesOut hresolve routines options

/-- The arrays are solved as they are. -/
theorem solveArrays_carriesOut (h : s.Separated) (options : SolveOptions) :
    CarriesOut s.memory (StoredSolution.Shows s.memory) (s.contents.solveArrays routines options)
      ((StoredSource.arrays s.coefficients s.constants).solve routines options s.memory) := by
  have hresolve : CarriesOut s.memory (fun μ x t => x.Holds μ t)
      ((SystemSource.value s.contents.coefficients.toValue).resolve s.contents.constants.toValue)
      ((StoredSource.arrays s.coefficients s.constants).resolve s.memory) := by
    rw [SystemSource.resolve_toValue]
    exact (StoredSystem.ofArrays_carriesOut s.coefficients s.constants h.constants_inside).weaken
      (.refl _) fun _ _ _ hx => hx.1
  exact StoredSource.solve_carriesOut hresolve routines options

/-- A system that can be built becomes the system of the session. -/
theorem buildSystem_follows (h : s.Separated) :
    s.Follows (s.contents.act routines .buildSystem) (act routines .buildSystem s) := by
  refine .get (.inMemory (StoredSystem.ofArrays_carriesOut s.coefficients s.constants
    h.constants_inside) fun x μ t hμ hfound hx => ⟨h.keepSystem hμ hx.1 hx.2, ?_⟩)
  have horder : x.order = s.contents.coefficients.length :=
    hx.1.order.trans (LinearSystem.order_of_ofArrays hfound)
  have hcontents : ({ s with memory := μ, system := some x } : Session).contents =
      { s.contents with system := some (x.coefficients.load μ, x.constants.load μ) } :=
    congrArg (fun c : Contents =>
      { c with system := some (x.coefficients.load μ, x.constants.load μ) }) (h.contents_mono hμ)
  show Except.ok (_, Reply.system _ _ _) = Except.ok (
    ({ s with memory := μ, system := some x } : Session).contents,
    Reply.system x.order (x.coefficients.load μ) (x.constants.load μ))
  rw [hcontents, horder, hx.2.coefficients, hx.2.constants]
  rfl

/-- A determinant that has been found becomes the last one. -/
theorem determinantOfArrays_follows (h : s.Separated) (options : DeterminantOptions) :
    s.Follows (s.contents.act routines (.determinantOfArrays options))
      (act routines (.determinantOfArrays options) s) := by
  refine .get (.inMemory (StoredArray.determinant_carriesOut
    (MatrixSource.resolve_toValue s.contents.coefficients) options)
    fun x μ d hμ _ hx => ⟨h.keepDeterminant hμ hx, ?_⟩)
  have hcontents : ({ s with memory := μ, determinant := some x } : Session).contents =
      { s.contents with determinant := some (x.report μ) } :=
    congrArg (fun c : Contents => { c with determinant := some (x.report μ) }) (h.contents_mono hμ)
  show Except.ok (_, Reply.determinant _) = Except.ok (
    ({ s with memory := μ, determinant := some x } : Session).contents,
    Reply.determinant (x.report μ))
  rw [hcontents, hx.report]

/-- **Every command** does to a session in memory what it does to plain values. -/
theorem act_follows (h : s.Separated) (c : Command) :
    s.Follows (s.contents.act routines c) (act routines c s) := by
  cases c with
  | setEntry target indices offset v => exact setEntry_follows routines h target indices offset v
  | showArrays => exact ⟨h, rfl⟩
  | buildSystem => exact buildSystem_follows routines h
  | solveSystem options =>
      exact .get (.inMemory (solveSystem_carriesOut routines h options) fun x μ y hμ _ hx =>
        keepSolution_follows h hμ hx)
  | solveArrays options =>
      exact .get (.inMemory (solveArrays_carriesOut routines h options) fun x μ y hμ _ hx =>
        keepSolution_follows h hμ hx)
  | determinantOfArrays options => exact determinantOfArrays_follows routines h options
  | showSolution =>
      refine .get ?_
      rw [Contents.act, contents_solution]
      cases s.solution with
      | none => exact ⟨rfl, s.memory, .refl _, rfl⟩
      | some x => exact ⟨h, rfl⟩
  | showDeterminant =>
      refine .get ?_
      rw [Contents.act, contents_determinant]
      cases s.determinant with
      | none => exact ⟨rfl, s.memory, .refl _, rfl⟩
      | some d => exact ⟨h, rfl⟩

end Session

end RowReduction
