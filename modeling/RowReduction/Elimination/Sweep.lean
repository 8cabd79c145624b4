import RowReduction.Elimination.Pivot
import RowReduction.Step

/-!
The sweep over the diagonal that every reduction makes. At each place it chooses a pivot, gives up
if the pivot's magnitude is below the tolerance, brings the pivot row up, and hands the tableau to a
clearing rule. The clearing rule is what tells one reduction from another.
-/
namespace RowReduction

/-- What a reduction has done so far. -/
structure Progress (α : Type) (m n : Nat) where
  working : Tableau α m n
  swaps : Nat
  pivots : List α
  log : Log α

/-- How a sweep ends: with every place cleared, or stalled at a column whose largest candidate, of
magnitude `candidate`, is below the tolerance. -/
inductive Sweep (α : Type) (m n : Nat) where
  | complete (state : Progress α m n)
  | stalled (column : Nat) (candidate : α) (state : Progress α m n)

namespace Progress

variable {α : Type} {m n : Nat}

/-- Nothing done yet. -/
def start (M : Tableau α m n) (log : Log α) : Progress α m n := ⟨M, 0, [], log⟩

/-- The parity of the exchanges, `1` or `-1`. -/
def sign (s : Progress α m n) : Int := if s.swaps % 2 = 0 then 1 else -1

/-- Puts a new working tableau in place and records the step that led to it. -/
def become (s : Progress α m n) (working : Tableau α m n)
    (step : List (List α) → RowStep α) : Progress α m n :=
  { s with working, log := s.log.record fun _ => step working.toLists }

/-- Exchanges row `i` with the pivot row `p`; nothing happens when they are the same row. -/
def bringUp (s : Progress α m n) (i p : Fin m) : Progress α m n :=
  if p = i then s
  else { s.become (s.working.swapRows i p) (.swap i p) with swaps := s.swaps + 1 }

/-- Records the pivot now on the diagonal. -/
def takePivot (s : Progress α m n) (d : Diagonal m n) : Progress α m n :=
  { s with pivots := s.pivots ++ [s.working d.row d.column] }

/-- Subtracts `factor` times the pivot row from row `r`, from the pivot column on. -/
def eliminate [Sub α] [Mul α] (s : Progress α m n) (d : Diagonal m n) (factor : α) (r : Fin m) :
    Progress α m n :=
  s.become (s.working.subtractRow d.row r d.index factor) (.eliminate d.index r factor)

variable [Scalar α]

/-- One place of a sweep: pivot, tolerance test, exchange, clearing. -/
def advance (clear : Diagonal m n → Progress α m n → Progress α m n) (tolerance : α)
    (d : Diagonal m n) (s : Progress α m n) : Sweep α m n :=
  let p := s.working.pivotRow d.row d.column
  let candidate := Scalar.abs (s.working p d.column)
  if Scalar.lt candidate tolerance then .stalled d.index candidate s
  else .complete (clear d ((s.bringUp d.row p).takePivot d))

end Progress

namespace Sweep

variable {α : Type} {m n : Nat}

/-- Goes on from a complete sweep; a stalled one stays as it is. -/
def andThen (sweep : Sweep α m n) (next : Progress α m n → Sweep α m n) : Sweep α m n :=
  match sweep with
  | complete s => next s
  | stalled c candidate s => stalled c candidate s

/-- The first `k` places of a sweep over the diagonal. -/
def run [Scalar α] (clear : Diagonal m n → Progress α m n → Progress α m n) (tolerance : α)
    (s : Progress α m n) : (k : Nat) → k ≤ m → k ≤ n → Sweep α m n
  | 0, _, _ => complete s
  | k + 1, hm, hn =>
    (run clear tolerance s k (Nat.le_of_succ_le hm) (Nat.le_of_succ_le hn)).andThen
      (Progress.advance clear tolerance ⟨k, hm, hn⟩)

@[simp] theorem andThen_complete (s : Progress α m n) (next : Progress α m n → Sweep α m n) :
    (complete s).andThen next = next s := rfl

@[simp] theorem andThen_stalled (c : Nat) (candidate : α) (s : Progress α m n)
    (next : Progress α m n → Sweep α m n) :
    (stalled c candidate s).andThen next = stalled c candidate s := rfl

/-- A sweep that ends complete was complete before, and its last part was too. -/
theorem andThen_eq_complete {sweep : Sweep α m n} {next : Progress α m n → Sweep α m n}
    {t : Progress α m n} (h : sweep.andThen next = complete t) :
    ∃ s, sweep = complete s ∧ next s = complete t := by
  cases sweep with
  | complete s => exact ⟨s, rfl, h⟩
  | stalled c candidate s => exact nomatch h

end Sweep

end RowReduction
