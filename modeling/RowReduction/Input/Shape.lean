import RowReduction.Input.Value

/-!
The shape of a value as an array. A value has a shape when its nesting is rectangular: at each level
either all items are lists of one length or none is a list. Where it has none, a walk through the
value finds how many leading dimensions are consistent, or an object that refuses to be an array.
Arrays inside lists take part with all their dimensions.
-/
namespace RowReduction

namespace Value

mutual

/-- The shape of a value whose nesting is rectangular. -/
def shape? : Value → Option (List Nat)
  | list [] => some [0]
  | list (first :: rest) =>
    first.shape?.bind fun shape =>
      if allHaveShape shape rest then some ((rest.length + 1) :: shape) else Option.none
  | array _ shape _ => some shape
  | _ => some []

/-- Whether every item is rectangular and has the given shape. -/
def allHaveShape (shape : List Nat) : List Value → Bool
  | [] => true
  | v :: rest => v.shape? == some shape && allHaveShape shape rest

end

mutual

/-- The values at the leaves of the nesting, in reading order. The elements of an array inside a
list count as leaves of their own. -/
def leaves : Value → List Value
  | list items => leavesOf items
  | array _ _ elements => elements
  | v => [v]

def leavesOf : List Value → List Value
  | [] => []
  | v :: rest => v.leaves ++ leavesOf rest

end

/-- The items at a depth of the nesting, in reading order. An array has its elements at the depth of
its last dimension. -/
def itemsAt : (depth : Nat) → Value → List Value
  | 0, array _ _ [v] => [v]
  | 0, v => [v]
  | depth + 1, list items => items.flatMap (itemsAt depth)
  | _ + 1, array _ _ elements => elements
  | _ + 1, v => [v]

end Value

/-- The most dimensions an array can have. -/
def maxRank : Nat := 64

/-- A shape without the leading units that make it longer than `rank`. -/
def dropLeadingUnits (rank : Nat) : List Nat → List Nat
  | 1 :: rest => if rank ≤ rest.length then dropLeadingUnits rank rest else 1 :: rest
  | shape => shape

/-- What a walk through a value has found. The first path down to a leaf settles the shape; whatever
does not fit it afterwards lowers the number of usable dimensions. -/
structure Survey where
  shape : List Nat
  limit : Nat
  settled : Bool
  ragged : Bool

namespace Survey

/-- Nothing met yet, and so many dimensions allowed. -/
def start (limit : Nat) : Survey := ⟨[], limit, false, false⟩

/-- The first place where two lists differ. -/
def firstDifference? : List Nat → List Nat → Option Nat
  | m :: ms, n :: ns => if m = n then (firstDifference? ms ns).map (· + 1) else some 0
  | _, _ => none

/-- Meets something at the given depth that brings dimensions of its own, and with them an end of
the nesting. -/
def block (s : Survey) (depth : Nat) (extents : List Nat) : Survey :=
  let rank := depth + extents.length
  let extents := extents.take (s.limit - depth)
  let s := { s with
    limit := min s.limit rank
    ragged := s.ragged || s.limit < rank || (s.settled && rank < s.limit) }
  if s.settled then
    match firstDifference? (s.shape.drop depth) extents with
    | none => s
    | some i => { s with limit := depth + i, ragged := true }
  else { s with shape := s.shape ++ extents, settled := true }

/-- Meets something without items at the given depth. -/
def leaf (s : Survey) (depth : Nat) : Survey := s.block depth []

mutual

/-- Meets a value at the given depth. -/
def visit (depth : Nat) (s : Survey) : Value → Except (Refusal × String) Survey
  | .refusing refusal text => .error (refusal, text)
  | .list items =>
    if s.limit = depth then .ok { s.leaf depth with ragged := true }
    else if s.settled && s.shape[depth]? != some items.length then
      .ok { s with limit := depth, ragged := true }
    else
      let s := if s.settled then s else { s with shape := s.shape ++ [items.length] }
      if items.isEmpty then .ok { s with limit := depth + 1, settled := true }
      else visitAll (depth + 1) s items
  | .array _ shape _ => .ok (s.block depth shape)
  | _ => .ok (s.leaf depth)

def visitAll (depth : Nat) (s : Survey) : List Value → Except (Refusal × String) Survey
  | [] => .ok s
  | v :: rest =>
    match visit depth s v with
    | .ok s => visitAll depth s rest
    | .error e => .error e

end

/-- What is wrong with the shape, when so many dimensions are allowed. -/
def problem? (s : Survey) (limit : Nat) : Option ShapeProblem :=
  if !s.ragged then none
  else if s.limit = limit then some (.tooDeep limit)
  else some (.ragged (s.shape.take s.limit))

/-- The dimensions found. -/
def dimensions (s : Survey) : List Nat := s.shape.take s.limit

end Survey

namespace Value

mutual

/-- The first array in a value at some depth whose dimensions end below the given ones. -/
def overhang? (depth : Nat) (dimensions : List Nat) : Value → Option ShapeProblem
  | list items => overhangAmong? (depth + 1) dimensions items
  | array _ shape _ =>
    let target := dimensions.drop depth
    if shape.length ≤ target.length then Option.none
    else some (.overhang (dropLeadingUnits target.length shape) target)
  | _ => Option.none

def overhangAmong? (depth : Nat) (dimensions : List Nat) : List Value → Option ShapeProblem
  | [] => Option.none
  | v :: rest => (v.overhang? depth dimensions).or (overhangAmong? depth dimensions rest)

end

/-- The shape of a value through which a walk has led, or what is wrong with it. -/
def surveyedShape (v : Value) (survey : Survey) : Except ShapeProblem (List Nat) :=
  match v.shape? with
  | some shape => if shape.length ≤ maxRank then .ok shape else .error (.tooDeep maxRank)
  | Option.none =>
    let problem := (survey.problem? maxRank).or (v.overhang? 0 survey.dimensions)
    .error (problem.getD (.ragged survey.dimensions))

/-- The shape of a value as an array. -/
def arrayShape (v : Value) (name : String) : Except Fault (List Nat) :=
  match Survey.visit 0 (.start maxRank) v with
  | .error (.type, reason) => .error (.notAnArray name reason)
  | .error (.shape, reason) => .error (.noShape name (.refused reason))
  | .ok survey =>
    match v.surveyedShape survey with
    | .ok shape => .ok shape
    | .error problem => .error (.noShape name problem)

end Value

end RowReduction
