/-!
Rectangular tableaus of numbers, stored row by row, and the operations of row reduction on them:
exchanging two rows, dividing the tail of a row, subtracting a multiple of the tail of one row from
another. Each operation has one lemma that gives its entries.
-/
namespace RowReduction

/-- A rectangle of numbers with `m` rows and `n` columns. -/
structure Tableau (α : Type) (m n : Nat) where
  rows : Vector (Vector α n) m
deriving DecidableEq

namespace Tableau

variable {α : Type} {m n : Nat}

/-- The entry in row `i` and column `j`, written `M i j`. -/
def entry (M : Tableau α m n) (i : Fin m) (j : Fin n) : α := M.rows[i][j]

instance : CoeFun (Tableau α m n) fun _ => Fin m → Fin n → α := ⟨entry⟩

def ofFn (f : Fin m → Fin n → α) : Tableau α m n :=
  ⟨Vector.ofFn fun i => Vector.ofFn fun j => f i j⟩

def row (M : Tableau α m n) (i : Fin m) : Vector α n := M.rows[i]

/-- The rows as lists, top to bottom. -/
def toLists (M : Tableau α m n) : List (List α) := M.rows.toList.map Vector.toList

/-- The entries in reading order. -/
def entries (M : Tableau α m n) : List α := M.toLists.flatten

/-- The leading diagonal, from the top left corner. -/
def diagonal (M : Tableau α m n) : List α :=
  List.ofFn fun k : Fin (min m n) =>
    M ⟨k, Nat.lt_of_lt_of_le k.isLt (Nat.min_le_left m n)⟩
      ⟨k, Nat.lt_of_lt_of_le k.isLt (Nat.min_le_right m n)⟩

/-- Exchanges two rows. -/
def swapRows (M : Tableau α m n) (i p : Fin m) : Tableau α m n := ⟨M.rows.swap i p⟩

/-- Divides row `i` by `pivot`, from column `start` on. -/
def divideRow [Div α] (M : Tableau α m n) (i : Fin m) (start : Nat) (pivot : α) :
    Tableau α m n :=
  let row := M.row i
  ⟨M.rows.set i (Vector.ofFn fun j => if start ≤ j then row[j] / pivot else row[j])⟩

/-- Subtracts `factor` times row `source` from row `target`, from column `start` on. -/
def subtractRow [Sub α] [Mul α] (M : Tableau α m n) (source target : Fin m) (start : Nat)
    (factor : α) : Tableau α m n :=
  let subtrahend := M.row source
  let row := M.row target
  ⟨M.rows.set target
    (Vector.ofFn fun j => if start ≤ j then row[j] - factor * subtrahend[j] else row[j])⟩

/-- Replaces column `j` by the entries of `b`. -/
def setColumn (M : Tableau α m n) (j : Fin n) (b : Vector α m) : Tableau α m n :=
  ofFn fun r c => if c = j then b[r] else M r c

/-- The tableau with `b` as an additional last column. -/
def augment (M : Tableau α m n) (b : Vector α m) : Tableau α m (n + 1) :=
  ofFn fun r c => if h : c.val < n then M r ⟨c, h⟩ else b[r]

def column (M : Tableau α m n) (j : Fin n) : Vector α m := Vector.ofFn fun i => M i j

/-- The two ways to read an entry of a vector agree. -/
@[simp] theorem get_eq_getElem (x : Vector α n) (i : Fin n) : x.get i = x[i] := rfl

@[ext] theorem ext {M N : Tableau α m n} (h : ∀ i j, M i j = N i j) : M = N := by
  obtain ⟨M⟩ := M
  obtain ⟨N⟩ := N
  congr 1
  ext i hi j hj
  exact h ⟨i, hi⟩ ⟨j, hj⟩

@[simp] theorem ofFn_apply (f : Fin m → Fin n → α) (i : Fin m) (j : Fin n) :
    ofFn f i j = f i j := by
  simp [ofFn, entry]

theorem swapRows_apply (M : Tableau α m n) (i p r : Fin m) (j : Fin n) :
    M.swapRows i p r j = if r = i then M p j else if r = p then M i j else M r j := by
  simp only [entry, swapRows, Fin.getElem_fin, Vector.getElem_swap, Fin.ext_iff]
  split
  · rfl
  · split <;> rfl

theorem divideRow_apply [Div α] (M : Tableau α m n) (i : Fin m) (start : Nat) (pivot : α)
    (r : Fin m) (j : Fin n) :
    M.divideRow i start pivot r j =
      if r = i ∧ start ≤ j then M r j / pivot else M r j := by
  by_cases h : r = i
  · subst h
    simp [entry, divideRow, row]
  · have hv : ¬ i.val = r.val := fun e => h (Fin.ext e.symm)
    simp [entry, divideRow, hv, h]

theorem subtractRow_apply [Sub α] [Mul α] (M : Tableau α m n) (source target : Fin m)
    (start : Nat) (factor : α) (r : Fin m) (j : Fin n) :
    M.subtractRow source target start factor r j =
      if r = target ∧ start ≤ j then M r j - factor * M source j else M r j := by
  by_cases h : r = target
  · subst h
    simp [entry, subtractRow, row]
  · have hv : ¬ target.val = r.val := fun e => h (Fin.ext e.symm)
    simp [entry, subtractRow, hv, h]

@[simp] theorem setColumn_apply (M : Tableau α m n) (c : Fin n) (b : Vector α m)
    (i : Fin m) (j : Fin n) :
    M.setColumn c b i j = if j = c then b[i] else M i j := by
  simp [setColumn]

theorem augment_apply (M : Tableau α m n) (b : Vector α m) (i : Fin m) (j : Fin (n + 1)) :
    M.augment b i j = if h : j.val < n then M i ⟨j, h⟩ else b[i] := by
  simp [augment]

@[simp] theorem column_getElem (M : Tableau α m n) (i : Fin m) (j : Fin n) :
    (M.column j)[i] = M i j := by
  simp [column]

/-- The rows as lists, entry by entry. -/
theorem toLists_eq_ofFn (M : Tableau α m n) :
    M.toLists = List.ofFn fun i => List.ofFn (M i) := by
  have hentries : M = ofFn M.entry := ext fun i j => (ofFn_apply _ i j).symm
  have hrows : (ofFn M.entry).toLists = List.ofFn fun i => List.ofFn (M i) := by
    rw [toLists, ofFn, Vector.toList_ofFn, List.map_ofFn]
    exact congrArg List.ofFn (funext fun i => Vector.toList_ofFn)
  rw [← hrows, ← hentries]

end Tableau

end RowReduction
