import RowReduction.Proofs.Session.Commands
import RowReduction.System.Hardware

/-!
Systems and solutions apart from what happens afterwards. In a session that begins with two arrays the
arrays stay separated, so every command does what it would do to plain values: a system is solved as
the arrays were when it was built, a command that fails changes nothing that can be seen, and
overwriting the unknowns of a solution reaches nothing but these unknowns.
-/
namespace RowReduction

namespace Session

variable {routines : MatrixRoutines} {s t : Session} {c : Command}

/-! ## One command -/

namespace Separated

theorem perform (h : s.Separated) (c : Command) : (s.perform routines c).1.Separated := by
  have hfollows := act_follows routines h c
  rw [Session.perform]
  cases hact : act routines c s with
  | ok reply s' =>
      rw [hact] at hfollows
      exact hfollows.1
  | error fault s' =>
      rw [hact] at hfollows
      obtain ⟨_, μ, hμ, rfl⟩ := hfollows
      exact h.mono hμ

/-- What a session shows after a command, and its answer. -/
theorem perform_eq (h : s.Separated) (c : Command) :
    ((s.perform routines c).1.contents, (s.perform routines c).2) =
      s.contents.perform routines c := by
  have hfollows := act_follows routines h c
  rw [Session.perform, Contents.perform]
  cases hact : act routines c s with
  | ok reply s' =>
      rw [hact] at hfollows
      rw [hfollows.2]
      rfl
  | error fault s' =>
      rw [hact] at hfollows
      obtain ⟨houtcome, μ, hμ, rfl⟩ := hfollows
      rw [houtcome]
      exact congrArg (·, Except.error fault) (h.contents_mono hμ)

theorem contents_perform (h : s.Separated) (c : Command) :
    (s.perform routines c).1.contents = (s.contents.perform routines c).1 :=
  congrArg Prod.fst (h.perform_eq c)

theorem reply_perform (h : s.Separated) (c : Command) :
    (s.perform routines c).2 = (s.contents.perform routines c).2 :=
  congrArg Prod.snd (h.perform_eq c)

/-- After a command that fails memory may have grown, and everything else is as it was. -/
theorem perform_of_fault (h : s.Separated) {fault : Fault}
    (hfault : (s.perform routines c).2 = .error fault) :
    ∃ μ, s.memory.Extends μ ∧ (s.perform routines c).1 = { s with memory := μ } := by
  have hfollows := act_follows routines h c
  rw [Session.perform] at hfault ⊢
  cases hact : act routines c s with
  | ok reply s' =>
      rw [hact] at hfault
      cases hfault
  | error problem s' =>
      rw [hact] at hfollows
      exact hfollows.2

end Separated

/-! ## Runs -/

/-- The two arrays that a session begins with are separated. -/
theorem separated_start (a b : NumericArray) : (start a b).Separated := by
  have hsize : (start a b).memory.size = 2 := by
    rw [start, NumericArray.size_store, NumericArray.size_store]
    rfl
  have hsystem : (start a b).system = none := rfl
  have hsolution : (start a b).solution = none := rfl
  have hwritable : (start a b).writable = [(start a b).coefficients, (start a b).constants] := rfl
  have hguarded : (start a b).guarded = [] := rfl
  have hfixed : (start a b).fixed = [] := rfl
  constructor
  case inside =>
    rw [hwritable, hfixed, hsize]
    intro r hr
    rcases List.mem_cons.mp hr with rfl | hr
    · exact Nat.two_pos
    · rcases List.mem_singleton.mp hr with rfl
      exact Nat.one_lt_two
  case writeable =>
    rw [hwritable]
    intro r hr
    rcases List.mem_cons.mp hr with rfl | hr
    · rfl
    · rcases List.mem_singleton.mp hr with rfl
      rfl
  case readOnly =>
    rw [hguarded]
    exact nofun
  case different => exact Nat.zero_ne_one
  case unknownsApart =>
    intro x hx
    rw [hsolution] at hx
    cases hx
  case apart =>
    rw [hfixed]
    exact fun _ _ => nofun
  case system =>
    intro x hx
    rw [hsystem] at hx
    cases hx
  case unknowns =>
    intro x hx
    rw [hsolution] at hx
    cases hx

theorem Separated.final (h : s.Separated) (commands : List Command) :
    (s.final routines commands).Separated := by
  induction commands generalizing s with
  | nil => exact h
  | cons c rest ih => exact ih (h.perform c)

/-- **A whole run** does to a session in memory what it does to plain values. -/
theorem Separated.contents_final (h : s.Separated) (commands : List Command) :
    (s.final routines commands).contents = s.contents.final routines commands := by
  induction commands generalizing s with
  | nil => rfl
  | cons c rest ih =>
      rw [Session.final, Contents.final, ih (h.perform c), h.contents_perform]

/-- The session in which a command builds a system, if it does. -/
def builtIn (routines : MatrixRoutines) (s : Session) (c : Command) : Option Session :=
  if c.builds && (s.perform routines c).2.isOk then some s else none

/-- The session in which the last system was built, if one was built on the way. -/
def lastBuild (routines : MatrixRoutines) : Session → List Command → Option Session
  | _, [] => none
  | s, c :: rest => (lastBuild routines (s.perform routines c).1 rest).or (s.builtIn routines c)

/-- What is made of two arrays when a system is built. -/
def builtSystem (built : Session) : NumericArray × NumericArray :=
  (built.contents.coefficients, built.contents.constants.flattenColumn)

theorem Separated.system_perform (h : s.Separated) (c : Command) :
    (s.perform routines c).1.contents.system =
      ((s.builtIn routines c).map builtSystem).or s.contents.system := by
  have hreply : (s.perform routines c).2 = _ := h.reply_perform c
  rw [h.contents_perform]
  by_cases hc : c = .buildSystem
  · subst hc
    rcases s.contents.perform_cases .buildSystem with
      ⟨fault, hperform⟩ | ⟨c', reply, hperform, hchanges⟩
    · rw [builtIn, hreply, hperform]
      rfl
    · rw [builtIn, hreply, hperform]
      exact congrArg Contents.system hchanges
  · have hbuilds : c.builds = false := by
      cases c <;> first | rfl | exact absurd rfl hc
    rw [builtIn, hbuilds, (s.contents.perform_keeps c).2 hc]
    rfl

/-- **The system of a session** is made from the arrays as they were when it was built. -/
theorem Separated.system_final (h : s.Separated) (commands : List Command) :
    (s.final routines commands).contents.system =
      ((s.lastBuild routines commands).map builtSystem).or s.contents.system := by
  induction commands generalizing s with
  | nil => rfl
  | cons c rest ih =>
      rw [Session.final, ih (h.perform c), h.system_perform, lastBuild, Option.map_or, Option.or_assoc]

/-- The session in which the last system was built is separated as well. -/
theorem Separated.of_lastBuild {built : Session} {commands : List Command} (h : s.Separated)
    (hbuilt : s.lastBuild routines commands = some built) : built.Separated := by
  induction commands generalizing s with
  | nil => cases hbuilt
  | cons c rest ih =>
      rcases Option.or_eq_some_iff.mp hbuilt with hrest | ⟨_, hnow⟩
      · exact ih (h.perform c) hrest
      · rw [builtIn] at hnow
        split at hnow
        · cases hnow
          exact h
        · cases hnow

/-! ## Answers -/

theorem Separated.reply_solveArrays (h : s.Separated) (options : SolveOptions) :
    (s.perform routines (.solveArrays options)).2 =
      (s.contents.solveArrays routines options).map fun x => .solution x.report := by
  rw [h.reply_perform, Contents.perform, Contents.act]
  cases s.contents.solveArrays routines options <;> rfl

theorem Separated.reply_solveSystem (h : s.Separated) (options : SolveOptions) :
    (s.perform routines (.solveSystem options)).2 =
      (s.contents.solveSystem routines options).map fun x => .solution x.report := by
  rw [h.reply_perform, Contents.perform, Contents.act]
  cases s.contents.solveSystem routines options <;> rfl

/-- A system is solved as the arrays that it was made from. -/
theorem solveSystem_of_built {c : Contents} {built : Session}
    (h : c.system = some (builtSystem built)) (options : SolveOptions) :
    c.solveSystem routines options = built.contents.solveArrays routines options := by
  rw [Contents.solveSystem, h, Contents.solveArrays, builtSystem]
  dsimp only
  rw [solve, solve, SystemSource.resolve_toValue, SystemSource.resolve_toValue,
    LinearSystem.ofArrays_flattenColumn]

/-- Two sessions with the same arrays and the same system give the same answers from then on. -/
theorem reply_of_sources (hs : s.Separated) (ht : t.Separated)
    (h : s.contents.sources = t.contents.sources) (later : List Command) {c : Command}
    (hc : c.computes = true) :
    ((s.final routines later).perform routines c).2 =
      ((t.final routines later).perform routines c).2 := by
  have hsources : (s.contents.final routines later).sources =
      (t.contents.final routines later).sources := by
    rw [Contents.sources_final, h, ← Contents.sources_final]
  rw [(hs.final later).reply_perform, (ht.final later).reply_perform, hs.contents_final,
    ht.contents_final, Contents.reply_sources hc, hsources, ← Contents.reply_sources hc]

end Session

/-- A report has lines above the unknowns and lines below them, and these do not show what the
unknowns are. -/
theorem SolutionFields.summary_eq (x : SolutionReport) : ∃ above below, ∀ u,
    ({ x with unknowns := u } : SolutionReport).summary = above ++ unknownLines 1 u ++ below := by
  -- the report of `x` itself settles what the lines above and below are
  have hlines : ∃ above below, x.summary = above ++ unknownLines 1 x.unknowns ++ below ∧
      ∀ u, ({ x with unknowns := u } : SolutionReport).summary =
        above ++ unknownLines 1 u ++ below :=
    ⟨_, _, (List.append_assoc _ _ _).trans (List.append_assoc _ _ _),
      fun u => (List.append_assoc _ _ _).trans (List.append_assoc _ _ _)⟩
  obtain ⟨above, below, _, h⟩ := hlines
  exact ⟨above, below, h⟩

namespace Session

/-- **What the commands of a session do not reach.** Whatever the commands before have been, a solve of
the arrays is answered by what the arrays hold now, and a solve of the system as a solve of the arrays
would have been answered when the system was built. A command that fails may leave new blocks in
memory, and everything else is as it was. A command that succeeds changes its own piece of what can be
seen. Nobody writes to the arrays of a system, of a log or of a determinant. A report shows the
unknowns in lines of their own, and overwriting one of them changes no later computation. -/
theorem isolated (routines : MatrixRoutines) (a b : NumericArray) (commands : List Command) :
    let s := (start a b).final routines commands
    (∀ options, (s.perform routines (.solveArrays options)).2 =
      (solve routines (.value s.contents.coefficients.toValue) s.contents.constants.toValue
        options).map fun x => .solution x.report) ∧
    (∀ built options, (start a b).lastBuild routines commands = some built →
      (s.perform routines (.solveSystem options)).2 =
        (built.perform routines (.solveArrays options)).2) ∧
    (∀ c fault, (s.perform routines c).2 = .error fault →
      (∃ μ, s.memory.Extends μ ∧ (s.perform routines c).1 = { s with memory := μ }) ∧
        (s.perform routines c).1.contents = s.contents) ∧
    (∀ c reply, (s.perform routines c).2 = .ok reply →
      s.contents.Changes (s.perform routines c).1.contents c) ∧
    (∀ c, c.writesArrays = false →
      (s.perform routines c).1.contents.coefficients = s.contents.coefficients ∧
        (s.perform routines c).1.contents.constants = s.contents.constants) ∧
    (∀ target indices offset v, target.isGuarded = true →
      (s.perform routines (.setEntry target indices offset v)).2 = .error .readOnly) ∧
    (∀ x : SolutionReport, ∃ above below, ∀ u,
      ({ x with unknowns := u } : SolutionReport).summary =
        above ++ SolutionFields.unknownLines 1 u ++ below) ∧
    ∀ indices offset v later c, c.computes = true →
      (((s.perform routines (.setEntry .unknowns indices offset v)).1.final routines
        later).perform routines c).2 = ((s.final routines later).perform routines c).2 := by
  intro s
  have hstart := separated_start a b
  have h : s.Separated := hstart.final commands
  refine ⟨h.reply_solveArrays, ?_, ?_, ?_, ?_, ?_, SolutionFields.summary_eq, ?_⟩
  · intro built options hbuilt
    have hsystem : s.contents.system = some (builtSystem built) := by
      rw [hstart.system_final commands, hbuilt]
      rfl
    rw [h.reply_solveSystem, solveSystem_of_built hsystem,
      (hstart.of_lastBuild hbuilt).reply_solveArrays]
  · intro c fault hfault
    refine ⟨h.perform_of_fault hfault, ?_⟩
    rw [h.contents_perform]
    exact Contents.perform_of_fault ((h.reply_perform c).symm.trans hfault)
  · intro c reply hreply
    rw [h.contents_perform]
    rw [h.reply_perform] at hreply
    rcases s.contents.perform_cases c with ⟨fault, hperform⟩ | ⟨c', _, hperform, hchanges⟩
    · rw [hperform] at hreply
      cases hreply
    · rw [hperform]
      exact hchanges
  · intro c hc
    rw [h.contents_perform]
    exact (s.contents.perform_keeps c).1 hc
  · intro target indices offset v htarget
    rw [h.reply_perform]
    cases target with
    | coefficients | constants | unknowns => cases htarget
    | _ => rfl
  · intro indices offset v later c hc
    refine reply_of_sources (h.perform _) h ?_ later hc
    obtain ⟨harrays, hsystem⟩ := s.contents.perform_keeps (.setEntry .unknowns indices offset v)
    have hbuilds : Command.setEntry .unknowns indices offset v ≠ .buildSystem := by
      intro hc
      cases hc
    rw [h.contents_perform, Contents.sources, (harrays rfl).1, (harrays rfl).2, hsystem hbuilds,
      Contents.sources]

/-- Writing to a block of entries is a run of commands that write to one entry each. -/
theorem assign_eq_final (s : Session) (target : Target) (indices : List Int) (v : Value) :
    ∃ commands, (s.assign routines target indices v).1 = s.final routines commands ∧
      ∀ c ∈ commands, ∃ offset w, c = .setEntry target indices offset w := by
  rw [assign]
  split
  · exact ⟨[], rfl, nofun⟩
  · split
    · exact ⟨[.setEntry target indices 0 v], rfl, fun c hc => ⟨0, v, List.mem_singleton.mp hc⟩⟩
    · split
      · exact ⟨[], rfl, nofun⟩
      · rename_i writes _
        refine ⟨entryWrites target indices (untilFault writes).1, ?_, fun c hc => ?_⟩
        · dsimp only
          split <;> rfl
        · obtain ⟨⟨x, k⟩, _, rfl⟩ := List.mem_map.mp hc
          exact ⟨k, .float x, rfl⟩

/-- The equations `2 x = 2` and `4 y = 8`. -/
def twoEquations : Session :=
  start ⟨[2, 2], [.ofNat 2, .zero, .zero, .ofNat 4]⟩ ⟨[2], [.ofNat 2, .ofNat 8]⟩

/-- A system is built and the arrays are solved; then a coefficient is changed and a constant is
spoiled, so that no system can be built any more. -/
def spoil : List Command :=
  [.buildSystem, .solveArrays { trace := .bool true },
    .setEntry .coefficients [0, 0] 0 (.int 5), .setEntry .constants [1] 0 (.float .nan), .buildSystem]

/-- The unknowns in an answer. -/
def Reply.unknowns? : Reply → Option (List Binary64)
  | .solution x => some x.unknowns
  | _ => none

/-- The system that is there at the end was built at the beginning. -/
theorem lastBuild_spoil : twoEquations.lastBuild .hardware spoil = some twoEquations := by
  have hfirst : (twoEquations.perform .hardware .buildSystem).2.isOk = true := by decide +kernel
  have hlast : ((twoEquations.final .hardware (spoil.take 4)).perform .hardware
      .buildSystem).2.isOk = false := by decide +kernel
  simp only [spoil, List.take, final] at hlast
  simp only [spoil, lastBuild, builtIn, Command.builds, Bool.false_and, Bool.true_and, hfirst,
    hlast, Bool.false_eq_true, if_false, if_true, Option.none_or, Option.or_none]

/-- The two equations after all that. -/
def spoilt : Session := twoEquations.final .hardware spoil

/-- The system that was built is still solved as the arrays were, which are spoiled by now; the log of
the last solution is safe, and its unknowns can be overwritten one by one. -/
theorem isolated_when_arrays_are_spoiled :
    twoEquations.lastBuild .hardware spoil = some twoEquations ∧
      (spoilt.perform .hardware (.solveSystem {})).2.toOption.bind Reply.unknowns? =
        some [.ofNat 1, .ofNat 2] ∧
      (∃ fault, (spoilt.perform .hardware (.solveArrays {})).2 = .error fault ∧
        (spoilt.perform .hardware (.solveArrays {})).1.contents = spoilt.contents) ∧
      (spoilt.perform .hardware (.setEntry (.traceTableau [0]) [0, 0] 0 (.int 9))).2 =
        .error .readOnly ∧
      ∃ x, spoilt.contents.solution = some x ∧
        (spoilt.perform .hardware (.setEntry .unknowns [0] 0 (.int 7))).1.contents =
          { spoilt.contents with
            solution := some { x with unknowns := [.ofNat 7, .ofNat 2] } } := by
  obtain ⟨-, hbuilt, hfailed, hchanges, -, hguarded, -⟩ := isolated .hardware
    ⟨[2, 2], [.ofNat 2, .zero, .zero, .ofNat 4]⟩ ⟨[2], [.ofNat 2, .ofNat 8]⟩ spoil
  have hrefused : (spoilt.perform .hardware (.solveArrays {})).2.isOk = false := by
    decide +kernel
  have hwritten : (spoilt.perform .hardware (.setEntry .unknowns [0] 0 (.int 7))).2.isOk =
      true := by decide +kernel
  have hsolution : spoilt.contents.solution.map (fun x => (x.order, x.unknowns)) =
      some (2, [.ofNat 1, .ofNat 2]) := by decide +kernel
  refine ⟨lastBuild_spoil, ?_, ?_, hguarded (.traceTableau [0]) _ _ _ rfl, ?_⟩
  · refine (congrArg (·.toOption.bind Reply.unknowns?) (hbuilt _ {} lastBuild_spoil)).trans ?_
    decide +kernel
  · obtain ⟨fault, hfault⟩ := eq_error_of_not_isOk hrefused
    exact ⟨fault, hfault, (hfailed _ fault hfault).2⟩
  · obtain ⟨reply, hreply⟩ := eq_ok_of_isOk hwritten
    obtain ⟨x, place, y, hx, hplace, hy, hcontents⟩ := hchanges _ reply hreply
    obtain ⟨x', hx', hnumbers⟩ := Option.map_eq_some_iff.mp hsolution
    obtain rfl : x' = x := Option.some.inj (hx'.symm.trans hx)
    obtain ⟨horder, hunknowns⟩ := Prod.mk.inj hnumbers
    rw [horder] at hplace
    obtain rfl : 0 = place := Except.ok.inj hplace
    obtain rfl : .ofNat 7 = y := Except.ok.inj hy
    rw [hunknowns] at hcontents
    exact ⟨x', hx', hcontents⟩

end Session

end RowReduction
