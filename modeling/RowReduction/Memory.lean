import RowReduction.Input.Assignment
import RowReduction.Step

/-!
Arrays in memory. Numbers stand in blocks, which are told apart by their addresses. An array knows
the block that holds its numbers, the lengths of its dimensions, and whether its numbers may be
overwritten through it. Two arrays may share a block, and then what is written through one of them is
read through the other; a copy has a block of its own.
-/
namespace RowReduction

/-- Blocks of numbers. Addresses count from zero in the order in which the blocks were made. -/
structure Memory where
  blocks : Array (List Binary64)

namespace Memory

def empty : Memory := ⟨#[]⟩

/-- The number of blocks, which is the address of the next one. -/
def size (μ : Memory) : Nat := μ.blocks.size

/-- The numbers in the block at an address. -/
def read (μ : Memory) (address : Nat) : List Binary64 := μ.blocks.getD address []

/-- The memory with one more block, at the address that was next. -/
def allocate (μ : Memory) (entries : List Binary64) : Memory := ⟨μ.blocks.push entries⟩

/-- The memory with other numbers in one of its blocks. -/
def overwrite (μ : Memory) (address : Nat) (entries : List Binary64) : Memory :=
  ⟨μ.blocks.setIfInBounds address entries⟩

variable {μ : Memory} {a b : Nat} {entries : List Binary64}

@[simp] theorem size_allocate : (μ.allocate entries).size = μ.size + 1 := Array.size_push _

@[simp] theorem size_overwrite : (μ.overwrite a entries).size = μ.size := Array.size_setIfInBounds

@[simp] theorem read_allocate_self : (μ.allocate entries).read μ.size = entries := by
  simp [read, allocate, size]

theorem read_allocate_of_lt (h : a < μ.size) : (μ.allocate entries).read a = μ.read a := by
  have hne : a ≠ μ.blocks.size := Nat.ne_of_lt h
  simp [read, allocate, Array.getElem?_push, hne]

theorem read_overwrite_self (h : a < μ.size) : (μ.overwrite a entries).read a = entries := by
  have hlt : a < μ.blocks.size := h
  simp [read, overwrite, hlt]

theorem read_overwrite_of_ne (h : a ≠ b) : (μ.overwrite a entries).read b = μ.read b := by
  simp [read, overwrite, h]

end Memory

/-- An array in memory: the block that holds its numbers, the lengths of its dimensions, and whether
its numbers may be overwritten through it. -/
structure StoredArray where
  address : Nat
  shape : List Nat
  writeable : Bool
deriving DecidableEq

/-- A step whose tableaus and vectors are arrays in memory. -/
abbrev StoredStep := Step StoredArray StoredArray Binary64

/-- Puts an array into memory, in a new block. -/
def NumericArray.store (a : NumericArray) (μ : Memory) : StoredArray × Memory :=
  (⟨μ.size, a.shape, true⟩, μ.allocate a.entries)

namespace StoredArray

/-- What an array holds. -/
def load (r : StoredArray) (μ : Memory) : NumericArray := ⟨r.shape, μ.read r.address⟩

/-- The same array, no longer to be written to. -/
def readOnly (r : StoredArray) : StoredArray := { r with writeable := false }

/-- A column of shape `(n, 1)` seen as a vector, on the same block; other arrays as they are. -/
def flattenColumn (r : StoredArray) : StoredArray :=
  match r.shape with
  | [n, 1] => { r with shape := [n] }
  | _ => r

/-- An array of its own with the same numbers. -/
def copy (r : StoredArray) (μ : Memory) : StoredArray × Memory := (r.load μ).store μ

/-- A copy that is not to be written to. -/
def snapshot (r : StoredArray) (μ : Memory) : StoredArray × Memory :=
  ((r.copy μ).1.readOnly, (r.copy μ).2)

/-- Overwrites all numbers of an array. -/
def fill (r : StoredArray) (entries : List Binary64) (μ : Memory) : Memory :=
  μ.overwrite r.address entries

/-- Writes a value to one entry, unless the array is not to be written to. -/
def setEntry (r : StoredArray) (indices : List Int) (offset : Nat) (v : Value) :
    EStateM Fault Memory Unit := do
  if !r.writeable then throw .readOnly
  match (r.load (← get)).setEntry indices offset v with
  | .error fault => throw fault
  | .ok a => modify (r.fill a.entries)

/-- The numbers of an array as rows, if it has two dimensions. -/
def rows (μ : Memory) (r : StoredArray) : List (List Binary64) :=
  match r.shape with
  | [m, n] => ((r.load μ).tableau m n).toLists
  | _ => []

/-- The numbers of an array in reading order. -/
def numbers (μ : Memory) (r : StoredArray) : List Binary64 := μ.read r.address

end StoredArray

end RowReduction
