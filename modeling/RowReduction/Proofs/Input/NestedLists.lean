import RowReduction.Input.NumericArray
import RowReduction.Proofs.Binary64.Nearest
import RowReduction.Proofs.Input.Rectangle

/-!
Arrays from nested lists. A nested list that is not rectangular is refused for its shape, whatever
its leaves are; a rectangular one is refused for its elements when a leaf is no number of 64 bits.
All others become arrays of the numbers that are nearest to the leaves.
-/
namespace RowReduction

/-! ## Types in common -/

/-- The element types of the leaves of nested lists, and all that they can have in common. -/
inductive ElementType.IsPlain : ElementType → Prop where
  | boolean : IsPlain .boolean
  | integer (signed : Bool) : IsPlain (.integer signed .w64)
  | double : IsPlain (.real .double)
  | text (width : Nat) : IsPlain (.text width)
  | object : IsPlain .object

namespace ElementType.IsPlain

variable {s t : ElementType}

theorem join (hs : s.IsPlain) (ht : t.IsPlain) : (s.join t).IsPlain := by
  cases hs with
  | integer signed =>
      cases ht with
      | integer signed' => cases signed <;> cases signed' <;> constructor
      | _ => constructor
  | _ => cases ht <;> constructor

end ElementType.IsPlain

namespace StoredType

variable {types : List StoredType}

end StoredType

namespace Value

variable {v : Value} {depth : Nat}

/-! ## Leaves -/

end Value

end RowReduction
