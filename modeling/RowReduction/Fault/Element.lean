import RowReduction.Fault.Kind
import RowReduction.Text.Quoted

/-!
What keeps a value from being an element of an array. Integers have to fit a word, texts have to
spell what they are to become, and texts become bytes, and bytes texts, within ASCII only.
-/
namespace RowReduction

/-- Why a value cannot be an element of a type. -/
inductive ElementProblem where
  /-- A text spells no integer. -/
  | unreadableInteger (shown : String)
  /-- A value of its kind stands for no integer. -/
  | noInteger (typeName : String)
  /-- Not-a-number is no integer. -/
  | undefinedInteger
  /-- An infinity is no integer. -/
  | infiniteInteger
  /-- An integer does not fit the type. -/
  | integerOutOfBounds (i : Int) (typeName : String)
  /-- An integer does not fit any machine word. -/
  | integerBeyondWord
  /-- A number of units of time does not fit a machine word. -/
  | countTooBig
  /-- A text spells no complex number. -/
  | unreadableComplex
  /-- A value of its kind is no bytes. -/
  | noBytes (typeName : String)
  /-- A byte beyond ASCII is no character. -/
  | undecodableByte (byte position : Nat)
  /-- Characters beyond ASCII, of which so many come together, are no bytes. -/
  | unencodableCharacters (first : Char) (position count : Nat)
  /-- A text names no moment. -/
  | unreadableMoment (text : String) (position : Nat)
  /-- A text names a month, a day or an hour that there is not. -/
  | momentFieldOutOfRange (field text : String)
  /-- A value of its kind is no moment. -/
  | noMoment
  /-- A value is no duration. -/
  | noDuration
  /-- A text names a moment, and nothing says in which unit it is to be counted. -/
  | momentWithoutUnit
  /-- An integer counts units, and nothing says which. -/
  | countWithoutUnit
  /-- Texts show moments in two units that lie too far apart to be counted in one. -/
  | noCommonUnit (unit other : String)
deriving DecidableEq

namespace ElementProblem

def kind : ElementProblem → FaultKind
  | noInteger _ | noBytes _ => .wrongType
  | infiniteInteger | integerOutOfBounds .. | integerBeyondWord | countTooBig
  | noCommonUnit .. => .tooLarge
  | undecodableByte .. => .undecodable
  | unencodableCharacters .. => .unencodable
  | unreadableInteger _ | undefinedInteger | unreadableComplex | unreadableMoment ..
  | momentFieldOutOfRange .. | noMoment | noDuration | momentWithoutUnit | countWithoutUnit =>
    .badArgument

/-- The range that texts are confined to when they become bytes, and bytes that become texts. -/
def asciiOnly : String := ": ordinal not in range(128)"

def message : ElementProblem → String
  | unreadableInteger shown => "invalid literal for int() with base 10: " ++ shown
  | noInteger typeName =>
    "int() argument must be a string, a bytes-like object or a real number, not '" ++ typeName ++
      "'"
  | undefinedInteger => "cannot convert float NaN to integer"
  | infiniteInteger => "cannot convert float infinity to integer"
  | integerOutOfBounds i typeName =>
    "Python integer " ++ toString i ++ " out of bounds for " ++ typeName
  | integerBeyondWord => "Python int too large to convert to C long"
  | countTooBig => "int too big to convert"
  | unreadableComplex => "complex() arg is a malformed string"
  | noBytes typeName => "a bytes-like object is required, not '" ++ typeName ++ "'"
  | undecodableByte byte position =>
    "'ascii' codec can't decode byte 0x" ++ hexText 2 byte ++ " in position " ++
      toString position ++ asciiOnly
  | unencodableCharacters first position count =>
    if count = 1 then
      "'ascii' codec can't encode character '" ++ characterCode first ++ "' in position " ++
        toString position ++ asciiOnly
    else
      "'ascii' codec can't encode characters in position " ++ toString position ++ "-" ++
        toString (position + count - 1) ++ asciiOnly
  | unreadableMoment text position =>
    "Error parsing datetime string \"" ++ text ++ "\" at position " ++ toString position
  | momentFieldOutOfRange field text =>
    field ++ " out of range in datetime string \"" ++ text ++ "\""
  | noMoment => "Could not convert object to NumPy datetime"
  | noDuration => "Could not convert object to NumPy timedelta"
  | momentWithoutUnit => "Cannot create a NumPy datetime other than NaT with generic units"
  | countWithoutUnit =>
    "Converting an integer to a NumPy datetime requires a specified unit"
  | noCommonUnit unit other =>
    "Integer overflow getting a common metadata divisor for NumPy datetime metadata [" ++ unit ++
      "] and [" ++ other ++ "]."

end ElementProblem

end RowReduction
