import RowReduction.Input.Shape

/-!
Nested lists and rectangles. The nesting of lists is rectangular when at every level of it either
all values are lists of one length or none is a list. It is exactly then that a nested list has a
shape, and the shape has the lengths of the levels.
-/
namespace RowReduction

namespace Value

/-! ## Nested lists -/

/-- A value that a nested list can have at a leaf. -/
inductive IsLeaf : Value → Prop where
  | none : IsLeaf .none
  | bool (b : Bool) : IsLeaf (.bool b)
  | int (i : Int) : IsLeaf (.int i)
  | float (x : Binary64) : IsLeaf (.float x)
  | text (s : String) : IsLeaf (.text s)

/-- The values at a level of the nesting, in reading order. -/
def level : Nat → Value → List Value
  | 0, v => [v]
  | k + 1, list items => items.flatMap (level k)
  | _ + 1, _ => []

/-- The length of a list. A leaf has none. -/
def extent? : Value → Option Nat
  | list items => some items.length
  | _ => Option.none

/-- A value at a level of `v` and a value at that level of `w` are lists of one length, or both are
leaves. -/
def Fit (v w : Value) : Prop := ∀ k, ∀ x ∈ v.level k, ∀ y ∈ w.level k, x.extent? = y.extent?

/-- The shape of a nested list, level by level. -/
inductive HasShape : List Nat → Value → Prop where
  | leaf {v : Value} (h : v.IsLeaf) : HasShape [] v
  | empty : HasShape [0] (.list [])
  | items {inner : List Nat} {first : Value} {rest : List Value}
      (h : ∀ item ∈ first :: rest, HasShape inner item) :
      HasShape ((rest.length + 1) :: inner) (.list (first :: rest))

variable {v w : Value} {items : List Value} {shape shape' : List Nat} {depth k : Nat}

/-! ## Levels -/

theorem mem_level_zero (v : Value) : v ∈ v.level 0 := List.mem_cons_self

theorem IsLeaf.extent?_eq (h : v.IsLeaf) : v.extent? = Option.none := by cases h <;> rfl

theorem IsLeaf.level_succ (h : v.IsLeaf) (k : Nat) : v.level (k + 1) = [] := by cases h <;> rfl

/-- The levels of an item are part of the levels of the list, one further down. -/
theorem level_subset {item : Value} (hitem : item ∈ items) (k : Nat) :
    item.level k ⊆ (list items).level (k + 1) :=
  fun _ hx => List.mem_flatMap.mpr ⟨item, hitem, hx⟩

theorem Fit.of_mem {items' : List Value} (h : (list items).Fit (list items')) {item item' : Value}
    (hitem : item ∈ items) (hitem' : item' ∈ items') : item.Fit item' :=
  fun k x hx y hy => h (k + 1) x (level_subset hitem k hx) y (level_subset hitem' k hy)

namespace HasShape

/-- Every value at a level has the length that the shape has there. -/
theorem extent?_of_mem_level (h : HasShape shape v) {x : Value} (hx : x ∈ v.level k) :
    x.extent? = shape[k]? := by
  induction h generalizing k with
  | leaf h =>
      cases k with
      | zero => exact (List.mem_singleton.mp hx) ▸ h.extent?_eq
      | succ k => exact nomatch h.level_succ k ▸ hx
  | empty =>
      cases k with
      | zero => exact (List.mem_singleton.mp hx) ▸ rfl
      | succ k => exact nomatch hx
  | items _ ih =>
      cases k with
      | zero => exact (List.mem_singleton.mp hx) ▸ rfl
      | succ k =>
          obtain ⟨item, hitem, hx⟩ := List.mem_flatMap.mp hx
          exact ih item hitem hx

theorem head_eq (h : HasShape shape v) (h' : HasShape shape' w) (hfit : v.Fit w) :
    shape[0]? = shape'[0]? := by
  rw [← h.extent?_of_mem_level (mem_level_zero v), ← h'.extent?_of_mem_level (mem_level_zero w)]
  exact hfit 0 v (mem_level_zero v) w (mem_level_zero w)

/-- Two values that fit together at every level have the same shape. -/
theorem unique (h : HasShape shape v) (h' : HasShape shape' w)
    (hfit : v.Fit w) : shape = shape' := by
  have htop := h.head_eq h' hfit
  induction h generalizing w shape' with
  | leaf _ =>
      cases h' with
      | leaf _ => rfl
      | empty => exact nomatch htop
      | items _ => exact nomatch htop
  | empty =>
      cases h' with
      | leaf _ => exact nomatch htop
      | empty => rfl
      | items _ => cases htop
  | @items inner first rest hitems ih =>
      cases h' with
      | leaf _ => exact nomatch htop
      | empty => cases htop
      | @items inner' first' rest' hitems' =>
          have hfirst : first ∈ first :: rest := List.mem_cons_self
          have hfirst' : first' ∈ first' :: rest' := List.mem_cons_self
          have hfirsts : first.Fit first' := hfit.of_mem hfirst hfirst'
          have hinner : inner = inner' := ih first hfirst (hitems' first' hfirst') hfirsts
            ((hitems first hfirst).head_eq (hitems' first' hfirst') hfirsts)
          rw [Option.some.inj htop, hinner]

end HasShape

end Value

end RowReduction
