import RowReduction.System.Stored

/-!
A working session: two arrays that the caller goes on changing, a system built from them at some
moment, and the last solutions. All of it stands in one memory. The caller holds arrays of all kinds,
those of a system and of a log included, and may try to write to any of them.
-/
namespace RowReduction

/-- A memory, and what a caller holds in it. -/
structure Session where
  memory : Memory
  coefficients : StoredArray
  constants : StoredArray
  system : Option StoredSystem := none
  solution : Option StoredSolution := none
  determinant : Option StoredDeterminant := none

namespace Step

variable {τ σ α : Type}

/-- The log within a step. -/
def steps : Step τ σ α → List (Step τ σ α)
  | determinantValue _ _ steps | unknown _ _ _ _ steps _ => steps
  | _ => []

/-- The tableau at a path, which leads from steps to steps of their own logs. -/
def tableauAt? : List Nat → List (Step τ σ α) → Option τ
  | [], _ => none
  | [i], steps => steps[i]?.bind tableau?
  | i :: path, steps => steps[i]?.bind fun s => tableauAt? path s.steps

end Step

namespace Session

/-- An array that a caller may try to write to. -/
inductive Target where
  | coefficients
  | constants
  /-- The unknowns of the last solution. -/
  | unknowns
  /-- The matrix of the system. -/
  | systemMatrix
  /-- The right-hand side of the system. -/
  | systemConstants
  /-- A tableau in the log of the last solution. -/
  | traceTableau (path : List Nat)
  /-- The solution that a step of that log shows. -/
  | traceSolution (step : Nat)
  /-- The triangular form behind the last determinant. -/
  | triangular

/-- The array that a caller means, if there is one. -/
def find? (s : Session) : Target → Option StoredArray
  | .coefficients => some s.coefficients
  | .constants => some s.constants
  | .unknowns => s.solution.map (·.unknowns)
  | .systemMatrix => s.system.map (·.coefficients)
  | .systemConstants => s.system.map (·.constants)
  | .traceTableau path => (s.solution.bind (·.trace)).bind (Step.tableauAt? path)
  | .traceSolution step => ((s.solution.bind (·.trace)).bind (·[step]?)).bind Step.solution?
  | .triangular => s.determinant.map (·.triangular)

/-- What is wrong when an array that a caller means is not there: unknowns have not been found yet,
and what else is not there cannot be written to either. -/
def Target.absence : Target → Fault
  | .unknowns => .noSolution
  | _ => .readOnly

/-- What a caller can ask of a session. -/
inductive Command where
  /-- Writes a value to the entry `offset` of the block at leading indices. -/
  | setEntry (target : Target) (indices : List Int) (offset : Nat) (v : Value)
  | showArrays
  | buildSystem
  | solveSystem (options : SolveOptions)
  | solveArrays (options : SolveOptions)
  | determinantOfArrays (options : DeterminantOptions)
  | showSolution
  | showDeterminant

/-- What a session answers, in plain numbers. -/
inductive Reply where
  | array (a : NumericArray)
  | arrays (a b : NumericArray)
  | system (order : Nat) (a b : NumericArray)
  | solution (s : SolutionReport)
  | determinant (d : DeterminantReport)

/-- Works in the memory of a session. -/
def inMemory {α : Type} (action : EStateM Fault Memory α) : EStateM Fault Session α := fun s =>
  match action s.memory with
  | .ok x memory => .ok x { s with memory }
  | .error fault memory => .error fault { s with memory }

/-- A solution becomes the last one. -/
def keepSolution (solution : StoredSolution) : EStateM Fault Session Reply := do
  modify ({ · with solution })
  return .solution (solution.report (← get).memory)

/-- What a command does. -/
def act (routines : MatrixRoutines) : Command → EStateM Fault Session Reply
  | .setEntry target indices offset v => do
    match (← get).find? target with
    | none => throw target.absence
    | some array =>
      inMemory (array.setEntry indices offset v)
      return .array (array.load (← get).memory)
  | .showArrays => do
    let s ← get
    return .arrays (s.coefficients.load s.memory) (s.constants.load s.memory)
  | .buildSystem => do
    let s ← get
    let system ← inMemory (StoredSystem.ofArrays s.coefficients s.constants)
    modify ({ · with system })
    let μ := (← get).memory
    return .system system.order (system.coefficients.load μ) (system.constants.load μ)
  | .solveSystem options => do
    keepSolution (← inMemory ((StoredSource.system (← get).system).solve routines options))
  | .solveArrays options => do
    let s ← get
    keepSolution (← inMemory
      ((StoredSource.arrays s.coefficients s.constants).solve routines options))
  | .determinantOfArrays options => do
    let determinant ← inMemory ((← get).coefficients.determinant options)
    modify ({ · with determinant })
    return .determinant (determinant.report (← get).memory)
  | .showSolution => do
    match (← get).solution with
    | none => throw .noSolution
    | some solution => return .solution (solution.report (← get).memory)
  | .showDeterminant => do
    match (← get).determinant with
    | none => throw .noSolution
    | some determinant => return .determinant (determinant.report (← get).memory)

variable (routines : MatrixRoutines)

/-- Performs a command: the session after it and its answer. What has been done before a fault stays
done. -/
def perform (s : Session) (c : Command) : Session × Except Fault Reply :=
  match act routines c s with
  | .ok reply s' => (s', .ok reply)
  | .error fault s' => (s', .error fault)

/-- A session after some commands, the first one first. -/
def final : Session → List Command → Session
  | s, [] => s
  | s, c :: rest => final (s.perform routines c).1 rest

/-- A session that begins with two arrays. -/
def start (a b : NumericArray) : Session :=
  let (coefficients, memory) := a.store .empty
  let (constants, memory) := b.store memory
  { memory, coefficients, constants }

/-- The commands that write numbers one after another, from the entry at leading indices on. -/
def entryWrites (target : Target) (indices : List Int) (numbers : List Binary64) : List Command :=
  numbers.zipIdx.map fun (x, k) => .setEntry target indices k (.float x)

/-- Writes a value to the entries at leading indices. Where there are fewer indices than dimensions,
the entries that they reach are written one by one, up to the first fault. -/
def assign (s : Session) (target : Target) (indices : List Int) (v : Value) :
    Session × Except Fault Reply :=
  match s.find? target with
  | none => (s, .error target.absence)
  | some array =>
    if !array.writeable || array.shape.length ≤ indices.length then
      s.perform routines (.setEntry target indices 0 v)
    else
      match (array.load s.memory).blockWrites indices v with
      | .error fault => (s, .error fault)
      | .ok writes =>
        let (numbers, fault?) := untilFault writes
        let s' := s.final routines (entryWrites target indices numbers)
        match fault? with
        | some fault => (s', .error fault)
        | none => (s', .ok (.array (array.load s'.memory)))

end Session

end RowReduction
