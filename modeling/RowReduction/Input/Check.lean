import RowReduction.Input.NumericArray

/-!
Checks on arrays. Each tests one condition and either hands back evidence of it or names the
argument and what is wrong with it.
-/
namespace RowReduction.NumericArray

/-- All entries are finite. -/
def AllFinite (a : NumericArray) : Prop := ∀ x ∈ a.entries, x.isFinite = true

instance (a : NumericArray) : Decidable a.AllFinite :=
  inferInstanceAs (Decidable (∀ x ∈ a.entries, x.isFinite = true))

def nanCount (a : NumericArray) : Nat := a.entries.countP Binary64.isNaN

def infinityCount (a : NumericArray) : Nat := a.entries.countP Binary64.isInfinite

def requireFinite (a : NumericArray) (name : String) : Except Fault (PLift a.AllFinite) :=
  require _ (.nonFinite name a.nanCount a.infinityCount)

def requireRank (a : NumericArray) (rank : Nat) (name : String) :
    Except Fault (PLift (a.rank = rank)) :=
  require _ (.wrongRank name rank a.shape)

def requireNonempty (a : NumericArray) (name : String) : Except Fault (PLift (a.size ≠ 0)) :=
  require _ (.emptyArray name a.shape)

/-- The shape of a square array. -/
def IsSquare (a : NumericArray) : Prop := ∃ n ∈ a.shape, a.shape = [n, n]

instance (a : NumericArray) : Decidable a.IsSquare :=
  inferInstanceAs (Decidable (∃ n ∈ a.shape, a.shape = [n, n]))

def requireSquare (a : NumericArray) (name : String) : Except Fault (PLift a.IsSquare) :=
  match a.shape with
  | [rows, columns] => require _ (.notSquare name rows columns)
  | shape => require _ (.notRectangular shape.length)

/-- The lengths of the first dimensions. -/
def leadingLengths : List NumericArray → Except Fault (List Nat)
  | [] => .ok []
  | a :: rest =>
    match a.shape with
    | [] => .error .noLength
    | n :: _ => (leadingLengths rest).map (n :: ·)

/-- Requires arrays of one length, with one name for each. -/
def requireSameLength (arrays : List NumericArray) (names : List String) : Except Fault Unit :=
  if arrays.length ≠ names.length then .error (.unnamedArrays arrays.length names.length)
  else if arrays.length < 2 then .ok ()
  else
    match leadingLengths arrays with
    | .error fault => .error fault
    | .ok lengths =>
      if lengths.all (some · == lengths.head?) then .ok ()
      else .error (.unequalLengths (names.zip lengths))

end RowReduction.NumericArray
