import RowReduction.Proofs.Memory.Logs
import RowReduction.Proofs.Outcome
import RowReduction.Session

/-!
What a session shows in plain numbers, and what its commands would do if arrays were plain values. A
plain value is changed by nobody else, so here isolation is obvious. That a session in memory behaves
in the same way is another matter.
-/
namespace RowReduction

/-- The value that an array is, when a caller hands it in. -/
def NumericArray.toValue (a : NumericArray) : Value :=
  .array ⟨.real .double, false⟩ a.shape (a.entries.map .float)

theorem NumericArray.toArray_toValue (a : NumericArray) (name : String) :
    a.toValue.toArray name = .ok a := by
  have hentries : (a.entries.map Value.float).map Value.number = a.entries := by
    rw [List.map_map]
    exact List.map_id a.entries
  show Except.ok (NumericArray.mk a.shape _) = _
  rw [hentries]

/-- Arrays that a caller hands in are checked as they are. -/
theorem SystemSource.resolve_toValue (a b : NumericArray) :
    (value a.toValue).resolve b.toValue = LinearSystem.ofArrays a b := by
  show LinearSystem.ofValues a.toValue b.toValue = _
  rw [LinearSystem.ofValues, NumericArray.toArray_toValue, NumericArray.toArray_toValue]
  rfl

theorem MatrixSource.resolve_toValue (a : NumericArray) :
    (value a.toValue).resolve = SquareMatrix.ofArray a := by
  rw [resolve, SquareMatrix.ofValue, NumericArray.toArray_toValue]
  rfl

/-- What a session holds. -/
structure Contents where
  coefficients : NumericArray
  constants : NumericArray
  /-- The matrix and the right-hand side of the system. -/
  system : Option (NumericArray × NumericArray)
  solution : Option SolutionReport
  determinant : Option DeterminantReport

namespace Session

/-- Whether a command writes to the arrays of the caller. -/
def Command.writesArrays : Command → Bool
  | .setEntry .coefficients _ _ _ | .setEntry .constants _ _ _ => true
  | _ => false

/-- Whether a command builds a system. -/
def Command.builds : Command → Bool
  | .buildSystem => true
  | _ => false

/-- Whether a command computes something. -/
def Command.computes : Command → Bool
  | .solveSystem _ | .solveArrays _ | .determinantOfArrays _ => true
  | _ => false

end Session

namespace Contents

variable (routines : MatrixRoutines)

/-- A change that is made unless there is a fault. -/
def orKeep (c : Contents) (change : Except Fault (Contents × Session.Reply)) :
    Contents × Except Fault Session.Reply :=
  match change with
  | .ok (c', reply) => (c', .ok reply)
  | .error fault => (c, .error fault)

/-- Solves the two arrays. -/
def solveArrays (c : Contents) (options : SolveOptions) : Except Fault Solution :=
  solve routines (.value c.coefficients.toValue) c.constants.toValue options

/-- Solves the system. Before one has been built there is nothing to solve. -/
def solveSystem (c : Contents) (options : SolveOptions) : Except Fault Solution :=
  match c.system with
  | none => solve routines (.value .none) .none options
  | some (a, b) => solve routines (.value a.toValue) b.toValue options

/-- The unknowns of the last solution as an array. -/
def unknowns (x : SolutionReport) : NumericArray := ⟨[x.order], x.unknowns⟩

/-- What writing to an entry changes. -/
def write (c : Contents) (target : Session.Target) (indices : List Int) (offset : Nat) (v : Value) :
    Except Fault (Contents × Session.Reply) := do
  match target with
  | .coefficients =>
    let a ← c.coefficients.setEntry indices offset v
    return ({ c with coefficients := a }, .array a)
  | .constants =>
    let b ← c.constants.setEntry indices offset v
    return ({ c with constants := b }, .array b)
  | .unknowns =>
    match c.solution with
    | none => throw .noSolution
    | some x =>
      let u ← (unknowns x).setEntry indices offset v
      return ({ c with solution := some { x with unknowns := u.entries } }, .array u)
  | _ => throw .readOnly

/-- What a command changes and answers. -/
def act (c : Contents) : Session.Command → Except Fault (Contents × Session.Reply)
  | .setEntry target indices offset v => c.write target indices offset v
  | .showArrays => return (c, .arrays c.coefficients c.constants)
  | .buildSystem => do
    let _ ← LinearSystem.ofArrays c.coefficients c.constants
    let b := c.constants.flattenColumn
    return ({ c with system := some (c.coefficients, b) },
      .system c.coefficients.length c.coefficients b)
  | .solveSystem options => do
    let x ← c.solveSystem routines options
    return ({ c with solution := some x.report }, .solution x.report)
  | .solveArrays options => do
    let x ← c.solveArrays routines options
    return ({ c with solution := some x.report }, .solution x.report)
  | .determinantOfArrays options => do
    let d ← RowReduction.determinant (.value c.coefficients.toValue) options
    return ({ c with determinant := some d.report }, .determinant d.report)
  | .showSolution => do
    match c.solution with
    | none => throw .noSolution
    | some x => return (c, .solution x)
  | .showDeterminant => do
    match c.determinant with
    | none => throw .noSolution
    | some d => return (c, .determinant d)

/-- Performs a command: the contents after it and its answer. -/
def perform (c : Contents) (command : Session.Command) : Contents × Except Fault Session.Reply :=
  c.orKeep (c.act routines command)

/-- The contents after some commands, the first one first. -/
def final : Contents → List Session.Command → Contents
  | c, [] => c
  | c, command :: rest => final (c.perform routines command).1 rest

/-! ## What one command changes -/

variable {routines} {c : Contents} {command : Session.Command}

/-- What a command that succeeds makes of the contents. -/
def Changes (c c' : Contents) : Session.Command → Prop
  | .setEntry .coefficients _ _ _ => ∃ a, c' = { c with coefficients := a }
  | .setEntry .constants _ _ _ => ∃ b, c' = { c with constants := b }
  | .setEntry .unknowns indices offset v => ∃ x place y, c.solution = some x ∧
    NumericArray.entryPlace [x.order] indices offset = .ok place ∧ v.entryNumber = .ok y ∧
      c' = { c with solution := some { x with unknowns := x.unknowns.set place y } }
  | .setEntry .. => False
  | .buildSystem => c' = { c with system := some (c.coefficients, c.constants.flattenColumn) }
  | .solveSystem _ | .solveArrays _ => ∃ x, c' = { c with solution := some x }
  | .determinantOfArrays _ => ∃ d, c' = { c with determinant := some d }
  | .showArrays | .showSolution | .showDeterminant => c' = c

theorem changes_of_act {c' : Contents} {reply : Session.Reply}
    (h : c.act routines command = .ok (c', reply)) : c.Changes c' command := by
  cases command with
  | setEntry target indices offset v =>
      cases target with
      | coefficients | constants =>
          obtain ⟨a, _, h⟩ := eq_ok_of_bind_eq_ok h
          cases h
          exact ⟨a, rfl⟩
      | unknowns =>
          rw [act, write] at h
          split at h
          · cases h
          · rename_i x hx
            obtain ⟨u, hu, h⟩ := eq_ok_of_bind_eq_ok h
            obtain ⟨place, hplace, hu⟩ := eq_ok_of_bind_eq_ok hu
            obtain ⟨y, hy, hu⟩ := eq_ok_of_bind_eq_ok hu
            cases hu
            cases h
            exact ⟨x, place, y, hx, hplace, hy, rfl⟩
      | _ => cases h
  | buildSystem =>
      obtain ⟨t, _, h⟩ := eq_ok_of_bind_eq_ok h
      cases h
      rfl
  | solveSystem options | solveArrays options | determinantOfArrays options =>
      obtain ⟨x, _, h⟩ := eq_ok_of_bind_eq_ok h
      cases h
      exact ⟨_, rfl⟩
  | showArrays =>
      cases h
      rfl
  | showSolution | showDeterminant =>
      rw [act] at h
      split at h
      · cases h
      · cases h
        rfl

/-- **A command fails and changes nothing, or changes its own piece.** -/
theorem perform_cases (c : Contents) (command : Session.Command) :
    (∃ fault, c.perform routines command = (c, .error fault)) ∨
      ∃ c' reply, c.perform routines command = (c', .ok reply) ∧ c.Changes c' command := by
  rw [perform, orKeep.eq_def]
  cases h : c.act routines command with
  | error fault => exact .inl ⟨fault, rfl⟩
  | ok change => exact .inr ⟨change.1, change.2, rfl, changes_of_act h⟩

theorem perform_of_fault {fault : Fault} (h : (c.perform routines command).2 = .error fault) :
    (c.perform routines command).1 = c := by
  rcases c.perform_cases command with ⟨_, hperform⟩ | ⟨c', reply, hperform, _⟩
  · rw [hperform]
  · rw [hperform] at h
    cases h

/-- The arrays are kept by commands that do not write to them, and the system by commands that do not
build one. -/
theorem perform_keeps (c : Contents) (command : Session.Command) :
    (command.writesArrays = false →
      (c.perform routines command).1.coefficients = c.coefficients ∧
        (c.perform routines command).1.constants = c.constants) ∧
    (command ≠ .buildSystem → (c.perform routines command).1.system = c.system) := by
  rcases c.perform_cases command with ⟨_, hperform⟩ | ⟨c', reply, hperform, hchanges⟩
  · rw [hperform]
    exact ⟨fun _ => ⟨rfl, rfl⟩, fun _ => rfl⟩
  · rw [hperform]
    cases command with
    | setEntry target indices offset v =>
        cases target with
        | coefficients | constants =>
            obtain ⟨a, rfl⟩ := hchanges
            exact ⟨nofun, fun _ => rfl⟩
        | unknowns =>
            obtain ⟨x, place, y, _, _, _, rfl⟩ := hchanges
            exact ⟨fun _ => ⟨rfl, rfl⟩, fun _ => rfl⟩
        | _ => exact hchanges.elim
    | buildSystem =>
        obtain rfl := hchanges
        exact ⟨fun _ => ⟨rfl, rfl⟩, fun h => absurd rfl h⟩
    | solveSystem options | solveArrays options | determinantOfArrays options =>
        obtain ⟨x, rfl⟩ := hchanges
        exact ⟨fun _ => ⟨rfl, rfl⟩, fun _ => rfl⟩
    | showArrays | showSolution | showDeterminant =>
        obtain rfl := hchanges
        exact ⟨fun _ => ⟨rfl, rfl⟩, fun _ => rfl⟩

/-! ## What later answers depend on -/

/-- The arrays and the system, without any results. -/
def sources (c : Contents) : Contents := { c with solution := none, determinant := none }

/-- What a command makes of the arrays and of the system does not depend on any results. -/
theorem sources_perform (c : Contents) (command : Session.Command) :
    (c.perform routines command).1.sources = (c.sources.perform routines command).1.sources := by
  have hkept (harrays : command.writesArrays = false) (hbuild : command ≠ .buildSystem)
      (d : Contents) : (d.perform routines command).1.sources = d.sources := by
    obtain ⟨harraysKept, hsystemKept⟩ := perform_keeps d command
    rw [sources, (harraysKept harrays).1, (harraysKept harrays).2, hsystemKept hbuild, sources]
  cases command with
  | setEntry target indices offset v =>
      cases target with
      | coefficients =>
          simp only [perform, act, write, sources]
          cases c.coefficients.setEntry indices offset v <;> rfl
      | constants =>
          simp only [perform, act, write, sources]
          cases c.constants.setEntry indices offset v <;> rfl
      | _ => exact (hkept rfl nofun c).trans (hkept rfl nofun c.sources).symm
  | buildSystem =>
      simp only [perform, act, sources]
      cases LinearSystem.ofArrays c.coefficients c.constants <;> rfl
  | _ => exact (hkept rfl nofun c).trans (hkept rfl nofun c.sources).symm

theorem sources_final (c : Contents) (commands : List Session.Command) :
    (c.final routines commands).sources = (c.sources.final routines commands).sources := by
  induction commands generalizing c with
  | nil => rfl
  | cons command rest ih =>
      rw [final, final, ih (c.perform routines command).1, sources_perform,
        ← ih (c.sources.perform routines command).1]

/-- What is computed does not depend on any results either. -/
theorem reply_sources (h : command.computes = true) :
    (c.perform routines command).2 = (c.sources.perform routines command).2 := by
  have hreply {α : Type} (c d : Contents) (outcome : Except Fault α) (f g : α → Contents)
      (reply : α → Session.Reply) :
      (c.orKeep (outcome >>= fun x => .ok (f x, reply x))).2 =
        (d.orKeep (outcome >>= fun x => .ok (g x, reply x))).2 := by
    cases outcome <;> rfl
  cases command with
  | solveSystem options | solveArrays options | determinantOfArrays options => exact hreply _ _ _ _ _ _
  | _ => cases h

end Contents

end RowReduction
