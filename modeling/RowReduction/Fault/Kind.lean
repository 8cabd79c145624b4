/-!
The kinds of faults. Some form the library's own hierarchy, so that a caller can handle a whole
branch of it.
-/
namespace RowReduction

/-- What kind of fault a cause is. The first five form the library's own hierarchy. -/
inductive FaultKind where
  | general
  | validation
  | dimension
  | numerical
  | singularMatrix
  | badArgument
  | wrongType
  | outOfBounds
  | tooLarge
  | zeroDivision
  | misuse
  | undecodable
  | unencodable
  | incomparable
deriving DecidableEq

namespace FaultKind

/-- The next wider kind of the hierarchy. -/
def parent? : FaultKind → Option FaultKind
  | validation | numerical => some general
  | dimension => some validation
  | singularMatrix => some numerical
  | _ => none

/-- The library's own kinds, wider before narrower. -/
def hierarchy : List FaultKind := [general, validation, dimension, numerical, singularMatrix]

/-- Whether one kind is the other or is included in it. The hierarchy is three deep. -/
def isA (kind wider : FaultKind) : Bool :=
  kind == wider || kind.parent? == some wider || (kind.parent?.bind parent?) == some wider

end FaultKind

end RowReduction
