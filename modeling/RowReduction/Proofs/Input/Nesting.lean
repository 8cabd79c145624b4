import RowReduction.Input.NumericArray
import RowReduction.Proofs.Outcome

/-!
Nested values and their shapes. A value that has a shape has one leaf for every place of it, if the
arrays in it do.
-/
namespace RowReduction

namespace Value

/-! ## Values with all their elements -/

mutual

/-- Every array in a value has an element for every place of its shape. -/
def IsFull : Value → Prop
  | list items => AllFull items
  | array _ shape elements => elements.length = shapeSize shape
  | _ => True

def AllFull : List Value → Prop
  | [] => True
  | v :: rest => v.IsFull ∧ AllFull rest

end

mutual

/-- **A value with a shape has a leaf for every place of it.** -/
theorem length_leaves {shape : List Nat} :
    ∀ v : Value, v.IsFull → v.shape? = some shape → v.leaves.length = shapeSize shape
  | list [], _, h => by
      cases h
      rfl
  | list (first :: rest), hfull, h => by
      rw [shape?] at h
      obtain ⟨inner, hfirst, hrest⟩ := Option.bind_eq_some_iff.mp h
      split at hrest
      · rename_i hall
        cases hrest
        rw [leaves, leavesOf, List.length_append, length_leaves first hfull.1 hfirst,
          length_leavesOf rest hfull.2 hall]
        change shapeSize inner + rest.length * shapeSize inner =
          (rest.length + 1) * shapeSize inner
        rw [Nat.succ_mul, Nat.add_comm]
      · exact nomatch hrest
  | array _ _ _, hfull, h => by
      cases h
      exact hfull
  | none, _, h | bool _, _, h | int _, _, h | float _, _, h | complex .., _, h | text _, _, h
  | bytes _, _, h | refusing .., _, h => by
      cases h
      rfl

theorem length_leavesOf {shape : List Nat} :
    ∀ items : List Value, AllFull items → allHaveShape shape items = true →
      (leavesOf items).length = items.length * shapeSize shape
  | [], _, _ => (Nat.zero_mul _).symm
  | v :: rest, hfull, h => by
      rw [allHaveShape, Bool.and_eq_true, beq_iff_eq] at h
      rw [leavesOf, List.length_append, length_leaves v hfull.1 h.1,
        length_leavesOf rest hfull.2 h.2, List.length_cons, Nat.succ_mul, Nat.add_comm]

end

mutual

/-- Counting in another unit of time keeps the number of leaves. -/
theorem length_leaves_inUnit (unit : TimeUnit) :
    ∀ v : Value, (v.inUnit unit).leaves.length = v.leaves.length
  | list items => length_leavesOf_inUnitAll unit items
  | array _ _ _ => List.length_map _
  | none | bool _ | int _ | float _ | complex .. | text _ | bytes _ | refusing .. => rfl

theorem length_leavesOf_inUnitAll (unit : TimeUnit) :
    ∀ items : List Value, (leavesOf (inUnitAll unit items)).length = (leavesOf items).length
  | [] => rfl
  | v :: rest => by
      rw [inUnitAll, leavesOf, leavesOf, List.length_append, List.length_append,
        length_leaves_inUnit unit v, length_leavesOf_inUnitAll unit rest]

end

end Value

end RowReduction
