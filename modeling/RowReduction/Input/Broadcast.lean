import RowReduction.Input.NumericArray

/-!
Spreading an array over a shape. Dimensions are matched from the last one backwards; a dimension of
length one, or one that is missing, is repeated.
-/
namespace RowReduction

/-- The entries of an array of shape `source`, repeated to fill `target`, for two shapes of the same
number of dimensions. -/
def spread? {α : Type} : (target source : List Nat) → List α → Option (List α)
  | [], [], entries => some entries
  | n :: target, m :: source, entries =>
    if m = n then
      let size := shapeSize source
      ((List.range n).mapM fun i =>
        spread? target source ((entries.drop (i * size)).take size)).map List.flatten
    else if m = 1 then
      (spread? target source entries).map fun block => (List.replicate n block).flatten
    else none
  | _, _, _ => none

/-- The shape of two arrays combined entry by entry, with the last dimension first. -/
def commonShapeReversed? : List Nat → List Nat → Option (List Nat)
  | [], shape | shape, [] => some shape
  | m :: left, n :: right =>
    if m = n || n = 1 then (commonShapeReversed? left right).map (m :: ·)
    else if m = 1 then (commonShapeReversed? left right).map (n :: ·)
    else none

/-- The shape of two arrays combined entry by entry. -/
def commonShape? (left right : List Nat) : Option (List Nat) :=
  (commonShapeReversed? left.reverse right.reverse).map List.reverse

/-- The entries of an array of one shape spread over another one. Leading units that make the first
shape longer are dropped first. -/
def spread {α : Type} (target source : List Nat) (entries : List α) : Except Fault (List α) :=
  let source := dropLeadingUnits target.length source
  let padded := List.replicate (target.length - source.length) 1 ++ source
  match spread? target padded entries with
  | some entries => .ok entries
  | none => .error (.cannotBroadcast source target)

namespace NumericArray

/-- An array spread over a shape. -/
def broadcast (a : NumericArray) (target : List Nat) : Except Fault NumericArray :=
  (spread target a.shape a.entries).map fun entries => ⟨target, entries⟩

/-- Two arrays subtracted entry by entry. -/
def subtract (a b : NumericArray) : Except Fault NumericArray :=
  match commonShape? a.shape b.shape with
  | none => .error (.unlikeShapes a.shape b.shape)
  | some shape => do
    let a ← a.broadcast shape
    let b ← b.broadcast shape
    return ⟨shape, a.entries.zipWith (· - ·) b.entries⟩

end NumericArray

end RowReduction
