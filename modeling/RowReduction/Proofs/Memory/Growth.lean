import Mathlib.Data.List.OfFn
import RowReduction.Memory

/-!
Memory that grows. New blocks leave the old ones as they were, so whatever was read from an array
before is still read from it afterwards; and what a log shows depends on the blocks of its own arrays
only.
-/
namespace RowReduction

namespace Memory

/-- A later memory still has every block of an earlier one, with the same numbers. -/
structure Extends (μ μ' : Memory) : Prop where
  size_le : μ.size ≤ μ'.size
  read_eq : ∀ a < μ.size, μ'.read a = μ.read a

namespace Extends

variable {base μ μ' μ'' : Memory} {entries : List Binary64}

theorem refl (μ : Memory) : μ.Extends μ := ⟨Nat.le_refl _, fun _ _ => rfl⟩

theorem trans (h : μ.Extends μ') (h' : μ'.Extends μ'') : μ.Extends μ'' where
  size_le := Nat.le_trans h.size_le h'.size_le
  read_eq a ha := (h'.read_eq a (Nat.lt_of_lt_of_le ha h.size_le)).trans (h.read_eq a ha)

theorem allocate (h : base.Extends μ) : base.Extends (μ.allocate entries) where
  size_le := by
    rw [size_allocate]
    exact Nat.le_succ_of_le h.size_le
  read_eq a ha := by
    rw [read_allocate_of_lt (Nat.lt_of_lt_of_le ha h.size_le), h.read_eq a ha]

/-- A block that was not there before may be overwritten. -/
theorem overwrite {a : Nat} (h : base.Extends μ) (ha : base.size ≤ a) :
    base.Extends (μ.overwrite a entries) where
  size_le := by
    rw [size_overwrite]
    exact h.size_le
  read_eq b hb := by
    have hne : a ≠ b := Nat.ne_of_gt (Nat.lt_of_lt_of_le hb ha)
    rw [read_overwrite_of_ne hne, h.read_eq b hb]

end Extends

end Memory

/-! ## Arrays -/

namespace NumericArray

variable (a : NumericArray) (μ : Memory)

@[simp] theorem store_address : (a.store μ).1.address = μ.size := rfl

@[simp] theorem size_store : (a.store μ).2.size = μ.size + 1 := Memory.size_allocate

@[simp] theorem load_store : (a.store μ).1.load (a.store μ).2 = a := by
  show NumericArray.mk a.shape _ = a
  rw [store_address, store, Memory.read_allocate_self]

theorem extends_store : μ.Extends (a.store μ).2 := (Memory.Extends.refl μ).allocate

end NumericArray

namespace StoredArray

variable {r : StoredArray} {μ μ' : Memory}

/-- What is read from an array depends on its block only. -/
theorem load_congr (h : μ'.read r.address = μ.read r.address) : r.load μ' = r.load μ :=
  congrArg (NumericArray.mk r.shape) h

theorem rows_congr (h : μ'.read r.address = μ.read r.address) : rows μ' r = rows μ r := by
  rw [rows, rows, load_congr h]

theorem numbers_congr (h : μ'.read r.address = μ.read r.address) : numbers μ' r = numbers μ r := h

theorem load_of_extends (h : μ.Extends μ') (hr : r.address < μ.size) : r.load μ' = r.load μ :=
  load_congr (h.read_eq _ hr)

theorem load_fill_self {entries : List Binary64} (hr : r.address < μ.size) :
    r.load (r.fill entries μ) = ⟨r.shape, entries⟩ :=
  congrArg (NumericArray.mk r.shape) (Memory.read_overwrite_self hr)

theorem read_fill_of_ne {w : StoredArray} {entries : List Binary64} (h : w.address ≠ r.address) :
    (w.fill entries μ).read r.address = μ.read r.address :=
  Memory.read_overwrite_of_ne h

theorem load_fill_of_ne {w : StoredArray} {entries : List Binary64} (h : w.address ≠ r.address) :
    r.load (w.fill entries μ) = r.load μ :=
  load_congr (read_fill_of_ne h)

@[simp] theorem load_copy (r : StoredArray) (μ : Memory) :
    (r.copy μ).1.load (r.copy μ).2 = r.load μ :=
  NumericArray.load_store _ μ

theorem load_readOnly (r : StoredArray) (μ : Memory) : r.readOnly.load μ = r.load μ := rfl

/-- A column is flattened in place as its numbers are flattened. -/
theorem load_flattenColumn (r : StoredArray) (μ : Memory) :
    r.flattenColumn.load μ = (r.load μ).flattenColumn := by
  rw [flattenColumn, NumericArray.flattenColumn]
  split <;> split <;> simp_all [load]

theorem flattenColumn_address (r : StoredArray) : r.flattenColumn.address = r.address := by
  rw [flattenColumn]
  split <;> rfl

theorem extends_copy (r : StoredArray) (μ : Memory) : μ.Extends (r.copy μ).2 :=
  NumericArray.extends_store _ μ

/-- An array is a copy made since `base`, which nobody may write to. -/
structure IsCopy (base μ : Memory) (r : StoredArray) : Prop where
  readOnly : r.writeable = false
  fresh : base.size ≤ r.address
  inside : r.address < μ.size

namespace IsCopy

variable {base base' : Memory}

theorem mono (h : r.IsCopy base μ) (hμ : μ.Extends μ') : r.IsCopy base μ' :=
  ⟨h.readOnly, h.fresh, Nat.lt_of_lt_of_le h.inside hμ.size_le⟩

theorem of_extends (h : r.IsCopy base' μ) (hbase : base.Extends base') : r.IsCopy base μ :=
  ⟨h.readOnly, Nat.le_trans hbase.size_le h.fresh, h.inside⟩

theorem snapshot (r : StoredArray) (h : base.Extends μ) :
    (r.snapshot μ).1.IsCopy base (r.snapshot μ).2 where
  readOnly := rfl
  fresh := h.size_le
  inside := by
    show μ.size < (μ.allocate _).size
    rw [Memory.size_allocate]
    exact Nat.lt_succ_self _

end IsCopy

/-- An array made since `base` that holds a vector and may be written to. -/
structure IsOwn {n : Nat} (base μ : Memory) (r : StoredArray) (x : Vector Binary64 n) : Prop where
  load : r.load μ = ⟨[n], x.toList⟩
  writeable : r.writeable = true
  fresh : base.size ≤ r.address
  inside : r.address < μ.size

theorem IsOwn.mono {base : Memory} {n : Nat} {x : Vector Binary64 n} (h : r.IsOwn base μ x)
    (hμ : μ.Extends μ') : r.IsOwn base μ' x where
  load := (load_of_extends hμ h.inside).trans h.load
  writeable := h.writeable
  fresh := h.fresh
  inside := Nat.lt_of_lt_of_le h.inside hμ.size_le

theorem IsOwn.of_extends {base base' : Memory} {n : Nat} {x : Vector Binary64 n}
    (h : r.IsOwn base' μ x) (hbase : base.Extends base') : r.IsOwn base μ x :=
  ⟨h.load, h.writeable, Nat.le_trans hbase.size_le h.fresh, h.inside⟩

theorem extends_snapshot (r : StoredArray) (μ : Memory) : μ.Extends (r.snapshot μ).2 :=
  extends_copy r μ

theorem load_snapshot (r : StoredArray) (μ : Memory) :
    (r.snapshot μ).1.load (r.snapshot μ).2 = r.load μ :=
  load_copy r μ

end StoredArray

/-! ## Tableaus and vectors as arrays -/

namespace Tableau

variable {m n : Nat}

/-- The entries in reading order, counted through. -/
theorem entries_eq_ofFn (M : Tableau Binary64 m n) :
    M.entries = List.ofFn fun k : Fin (m * n) => M k.divNat k.modNat := by
  have hplace (i : Fin m) (j : Fin n) (h : i * n + j < m * n) :
      (⟨i * n + j, h⟩ : Fin (m * n)) = Fin.mkDivMod i j :=
    Fin.ext (congrArg (· + j.val) (Nat.mul_comm _ _))
  rw [entries, toLists_eq_ofFn, List.ofFn_mul]
  simp only [hplace, Fin.divNat_mkDivMod, Fin.modNat_mkDivMod]

theorem getElem?_entries (M : Tableau Binary64 m n) (i : Fin m) (j : Fin n) :
    M.entries[(i * n + j : Nat)]? = some (M i j) := by
  have hplace : (i * n + j : Nat) = (Fin.mkDivMod i j).val :=
    congrArg (· + j.val) (Nat.mul_comm _ _)
  rw [entries_eq_ofFn, hplace, List.getElem?_ofFn, dif_pos (Fin.isLt _), Fin.eta,
    Fin.divNat_mkDivMod, Fin.modNat_mkDivMod]

/-- A tableau can be read back from its entries. -/
theorem tableau_entries (M : Tableau Binary64 m n) (shape : List Nat) :
    (NumericArray.mk shape M.entries).tableau m n = M := by
  ext i j
  rw [NumericArray.tableau, ofFn_apply, Array.getD_eq_getD_getElem?, List.getElem?_toArray,
    getElem?_entries, Option.getD_some]

end Tableau

/-- A vector can be read back from its entries. -/
theorem NumericArray.vector_mk {n : Nat} (x : Vector Binary64 n) (shape : List Nat) :
    (NumericArray.mk shape x.toList).vector n = x := by
  ext i hi
  simp [vector]

end RowReduction
