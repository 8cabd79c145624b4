import RowReduction.Tableau.Basic

/-!
The steps of a reduction and the log that records them. Each step keeps the numbers and the rows it
acted on and a copy of the tableau it left behind, so a log can be read, and replayed, without the
computation that wrote it. A log that records nothing takes the same steps and keeps none of them.
-/
namespace RowReduction

/-- One entry of a log, with tableaus shown as `τ` and solutions shown as `σ`. Rows and columns count
from zero. -/
inductive Step (τ σ α : Type) where
  /-- The augmented tableau before any row operation. -/
  | initial (tableau : τ)
  /-- Rows `row` and `pivotRow` were exchanged to bring the pivot up. -/
  | swap (row pivotRow : Int) (tableau : τ)
  /-- Row `row` was divided by its pivot. -/
  | normalize (row : Int) (pivot : α) (tableau : τ)
  /-- From row `target`, `factor` times row `source` was subtracted. -/
  | eliminate (source target : Int) (factor : α) (tableau : τ)
  /-- No candidate in `column` reaches the tolerance; the largest has magnitude `pivot`. -/
  | singularPivot (column : Int) (pivot tolerance : α) (tableau : τ)
  /-- The triangular form is reached; `sign` is the parity of the exchanges. -/
  | triangular (tableau : τ) (sign : Int)
  /-- A determinant, with the tableau and the log it came from where these are known. -/
  | determinantValue (value : α) (tableau : Option τ) (steps : List (Step τ σ α))
  /-- One unknown as a quotient of determinants. -/
  | unknown (index : Int) (determinant divisor : α) (tableau : τ) (steps : List (Step τ σ α))
      (value : α)
  /-- The solution, with the reduced tableau where there is one. -/
  | final (solution : σ) (tableau : Option τ)

/-- The step of a reduction, which shows tableaus as lists of rows and solutions as lists. -/
abbrev RowStep (α : Type) := Step (List (List α)) (List α) α

namespace Step

variable {τ σ τ' σ' α : Type}

/-- The tableau a step shows. -/
def tableau? : Step τ σ α → Option τ
  | initial t | swap _ _ t | normalize _ _ t | eliminate _ _ _ t | singularPivot _ _ _ t
  | triangular t _ | unknown _ _ _ t _ _ => some t
  | determinantValue _ t _ | final _ t => t

/-- The solution a step shows. -/
def solution? : Step τ σ α → Option σ
  | final s _ => some s
  | _ => none

mutual

/-- A step that shows its tableaus and solutions in another way. -/
def map (f : τ → τ') (g : σ → σ') : Step τ σ α → Step τ' σ' α
  | initial t => initial (f t)
  | swap row pivotRow t => swap row pivotRow (f t)
  | normalize row pivot t => normalize row pivot (f t)
  | eliminate source target factor t => eliminate source target factor (f t)
  | singularPivot column pivot tolerance t => singularPivot column pivot tolerance (f t)
  | triangular t sign => triangular (f t) sign
  | determinantValue value t steps => determinantValue value (t.map f) (mapAll f g steps)
  | unknown index determinant divisor t steps value =>
    unknown index determinant divisor (f t) (mapAll f g steps) value
  | final s t => final (g s) (t.map f)

def mapAll (f : τ → τ') (g : σ → σ') : List (Step τ σ α) → List (Step τ' σ' α)
  | [] => []
  | s :: rest => s.map f g :: mapAll f g rest

end

end Step

/-- A log being written, newest entry first, or no log at all. -/
structure Log (α : Type) where
  newestFirst? : Option (List (RowStep α))

namespace Log

variable {α : Type}

/-- Records nothing. -/
def off : Log α := ⟨none⟩

/-- An empty log that records. -/
def empty : Log α := ⟨some []⟩

/-- An empty log when `recording`, and none otherwise. -/
def start (recording : Bool) : Log α := if recording then empty else off

/-- The recorded steps, oldest first. -/
def steps? (log : Log α) : Option (List (RowStep α)) := log.newestFirst?.map List.reverse

/-- The recorded steps, and none when nothing is recorded. -/
def steps (log : Log α) : List (RowStep α) := log.steps?.getD []

/-- Appends a step, which is not computed when nothing is recorded. -/
def record (log : Log α) (step : Unit → RowStep α) : Log α :=
  match log.newestFirst? with
  | some entries => ⟨some (step () :: entries)⟩
  | none => log

@[simp] theorem steps?_off : (off : Log α).steps? = none := rfl

@[simp] theorem steps?_empty : (empty : Log α).steps? = some [] := rfl

@[simp] theorem steps?_record (log : Log α) (step : Unit → RowStep α) :
    (log.record step).steps? = log.steps?.map (· ++ [step ()]) := by
  obtain ⟨_ | entries⟩ := log <;> simp [record, steps?]

@[simp] theorem record_off (step : Unit → RowStep α) : (off : Log α).record step = off := rfl

end Log

end RowReduction
