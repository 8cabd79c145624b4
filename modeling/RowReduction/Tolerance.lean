import RowReduction.Input.NumericArray
import RowReduction.Input.Reading

/-!
Tolerances and thresholds. A pivot candidate whose magnitude is below the pivot tolerance counts as
zero; a condition number above the threshold earns a warning; the tiers say how closely two answers
are expected to agree.
-/
namespace RowReduction

/-- The version of this library. -/
def version : String := "0.1.0"

namespace Tolerance

/-- The default pivot tolerance. -/
def pivot : Binary64 := .ofDecimal false 1 (-12)

/-- The condition number above which an answer keeps about six digits at most. -/
def illConditioned : Binary64 := .ofDecimal false 1 10

/-- Finite and strictly positive. -/
def IsUsable (x : Binary64) : Prop := x.isFinite = true ∧ Binary64.zero.lt x = true

instance (x : Binary64) : Decidable (IsUsable x) :=
  inferInstanceAs (Decidable (x.isFinite = true ∧ Binary64.zero.lt x = true))

/-- The tolerance a value stands for. Whatever keeps a value from being a number makes it no real
number, except that an integer can be too large. -/
def ofValue (v : Value) (name : String) : Except Fault Binary64 :=
  match v.real with
  | .error .integerTooLarge => .error .integerTooLarge
  | .error _ => .error (.notReal name v.display)
  | .ok x => do
    let _ ← require (IsUsable x) (.toleranceOutOfRange name x)
    return x

/-- The name of the texts or bytes among the leaves of a value, which have no order with numbers. -/
def unorderedElements? (leaves : List Value) : Option String :=
  let isText : Value → Bool
    | .text _ => true
    | _ => false
  let isBytes : Value → Bool
    | .bytes _ => true
    | _ => false
  if leaves.any isText then some "StrDType"
  else if leaves.any isBytes then some "BytesDType"
  else none

/-- Lists, and objects that can refuse, have to become arrays before they are compared. -/
def requireComparable (v : Value) : Except Fault Unit := do
  match Survey.visit 0 (.start maxRank) v with
  | .error (refusal, reason) => throw (.refused refusal reason)
  | .ok survey =>
    if let .error problem := v.surveyedShape survey then throw (.unshapelyEntries problem)
    (v.requireElements (StoredType.common v.types).element).mapError Fault.element

/-- The number that magnitudes are compared with when a value is used as a tolerance without being
checked. Arrays and lists take part in a comparison if they have exactly one element. -/
def comparand (v : Value) : Except Fault Binary64 := do
  requireComparable v
  let leaves := v.leaves
  match unorderedElements? leaves with
  | some elements => throw (.noComparison elements)
  | none =>
    match leaves with
    | [.none] => throw (.noOrder Value.none.kindName)
    | [x] => x.single
    | leaves => throw (.ambiguousTruth leaves.length)

/-- How closely two answers are expected to agree. -/
structure Tier where
  name : String
  description : String
  relative : Binary64
  absolute : Binary64

def wellConditionedTier : Tier where
  name := "cpu_fp64"
  description := "CPU double precision, well-conditioned"
  relative := .ofDecimal false 1 (-10)
  absolute := .ofDecimal false 1 (-12)

def agreementTier : Tier where
  name := "solution_agreement"
  description := "Two independent methods on the same system"
  relative := .ofDecimal false 1 (-6)
  absolute := .ofDecimal false 1 (-6)

def illConditionedTier : Tier where
  name := "cpu_fp64_ill_conditioned"
  description := "CPU double precision, ill-conditioned (cond > 1e4)"
  relative := .ofDecimal false 1 (-4)
  absolute := .ofDecimal false 1 (-6)

def tiers : List Tier := [wellConditionedTier, agreementTier, illConditionedTier]

/-- The tier for comparing with a reference. -/
def tier (illConditioned : Bool) : Tier :=
  if illConditioned then illConditionedTier else wellConditionedTier

end Tolerance

end RowReduction
