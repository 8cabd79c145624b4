import Mathlib
import RowReduction.Elimination.Cramer
import RowReduction.Proofs.Elimination.Recording
import RowReduction.Proofs.Outcome

/-!
Cramer's rule in closed form. The loop over the columns stops at the first one whose determinant is
not finite; otherwise it fills in every unknown and records one step for each, in order. The tests
on the determinant of the system come before the loop.
-/
namespace RowReduction

variable {α : Type}

/-- Recording one step after another appends their list. -/
theorem Log.foldl_record {β : Type} (f : β → RowStep α) (xs : List β) (log : Log α) :
    (xs.foldl (fun log x => log.record fun _ => f x) log).steps? =
      log.steps?.map (· ++ xs.map f) := by
  induction xs generalizing log with
  | nil => simp
  | cons x rest ih =>
      rw [List.foldl_cons, ih, steps?_record, Option.map_map, List.map_cons]
      congr 1
      funext old
      exact List.append_assoc old [f x] (rest.map f)

/-- Overwriting the entries of a vector at the listed places. -/
theorem foldl_set_get {n : Nat} (f : Fin n → α) (places : List (Fin n)) (x : Vector α n)
    (j : Fin n) :
    (places.foldl (fun x i => x.set i (f i) i.isLt) x).get j =
      if j ∈ places then f j else x.get j := by
  induction places generalizing x with
  | nil => simp
  | cons i rest ih =>
      rw [List.foldl_cons, ih]
      by_cases hrest : j ∈ rest
      · -- a later write at the same place wins
        rw [if_pos hrest, if_pos (List.mem_cons_of_mem _ hrest)]
      · rw [if_neg hrest]
        by_cases hij : j = i
        · subst hij
          rw [if_pos List.mem_cons_self]
          simp
        · rw [if_neg (List.not_mem_cons_of_ne_of_not_mem hij hrest)]
          have hne : i.val ≠ j.val := fun e => hij (Fin.ext e.symm)
          simp [hne]

/-- Overwriting every entry of a vector leaves nothing of it. -/
theorem foldl_set_finRange {n : Nat} (f : Fin n → α) (x : Vector α n) :
    (List.finRange n).foldl (fun x i => x.set i (f i) i.isLt) x = Vector.ofFn f := by
  ext j hj
  have h := foldl_set_get f (List.finRange n) x ⟨j, hj⟩
  rw [if_pos (List.mem_finRange _)] at h
  rw [Vector.getElem_ofFn]
  exact h

namespace Tableau

variable [Scalar α] {n : Nat} (A : Tableau α n n) (b : Vector α n) (tolerance : α)
  (recording : Bool)

/-- The reduction of the system with column `i` replaced by the right-hand side. -/
def replaced (i : Fin n) : Triangulation α n n :=
  (A.setColumn i b).triangulate tolerance (.start recording)

/-- The first of the listed columns whose replacement has a determinant that is not finite. -/
def outOfRange? (columns : List (Fin n)) : Option (Fin n) :=
  columns.find? fun i => !Scalar.isFinite (A.replaced b tolerance recording i).value

/-- The step that records unknown `i`. -/
def unknownStep (divisor : α) (i : Fin n) : RowStep α :=
  let minor := A.replaced b tolerance recording i
  .unknown i minor.value divisor (A.setColumn i b).toLists minor.log.steps (minor.value / divisor)

/-- What Cramer's rule finds when all determinants can be divided. -/
def quotients : CramerSolution α n :=
  let main := A.triangulate tolerance (.start recording)
  let solution := Vector.ofFn fun i => (A.replaced b tolerance recording i).value / main.value
  let log := (Log.start recording).record fun _ =>
    .determinantValue main.value (some A.toLists) main.log.steps
  { solution
    determinant := main.value
    log := ((List.finRange n).foldl
      (fun log i => log.record fun _ => A.unknownStep b tolerance recording main.value i)
      log).record fun _ => .final solution.toList none }

variable {A b tolerance recording}

/-- The first column out of range is the least one. -/
theorem outOfRange?_eq_some_iff {i : Fin n} :
    A.outOfRange? b tolerance recording (List.finRange n) = some i ↔
      Scalar.isFinite (A.replaced b tolerance recording i).value = false ∧
        ∀ j < i, Scalar.isFinite (A.replaced b tolerance recording j).value = true := by
  rw [outOfRange?, ← List.ofFn_id, show i = id i from rfl,
    List.find?_ofFn_eq_some_of_injective Function.injective_id]
  simp

theorem outOfRange?_eq_none_iff :
    A.outOfRange? b tolerance recording (List.finRange n) = none ↔
      ∀ i, Scalar.isFinite (A.replaced b tolerance recording i).value = true := by
  rw [outOfRange?, List.find?_eq_none]
  simp

theorem cramerUnknown_of_not_finite {i : Fin n}
    (hi : Scalar.isFinite (A.replaced b tolerance recording i).value = false) (divisor : α)
    (found : Vector α n × Log α) :
    A.cramerUnknown b tolerance divisor recording found i =
      .error (.notFinite (some i) (A.replaced b tolerance recording i).value) := by
  rw [replaced] at hi ⊢
  simp only [cramerUnknown, hi, Bool.not_false, if_pos]

theorem cramerUnknown_of_finite {i : Fin n} {divisor : α}
    (hdivisor : Scalar.isZero divisor = false)
    (hi : Scalar.isFinite (A.replaced b tolerance recording i).value = true)
    (found : Vector α n × Log α) :
    A.cramerUnknown b tolerance divisor recording found i =
      .ok (found.1.set i ((A.replaced b tolerance recording i).value / divisor) i.isLt,
        found.2.record fun _ => A.unknownStep b tolerance recording divisor i) := by
  rw [replaced] at hi
  simp only [cramerUnknown, hi, hdivisor, Bool.not_true, Bool.false_eq_true, if_false]
  rfl

/-- **The loop over the columns** fails at the first column that is out of range, and otherwise
fills in all unknowns and records them. -/
theorem foldlM_cramerUnknown {divisor : α} (hdivisor : Scalar.isZero divisor = false)
    (columns : List (Fin n)) (found : Vector α n × Log α) :
    columns.foldlM (A.cramerUnknown b tolerance divisor recording) found =
      match A.outOfRange? b tolerance recording columns with
      | some i => .error (.notFinite (some i) (A.replaced b tolerance recording i).value)
      | none => .ok
          (columns.foldl (fun x (i : Fin n) =>
            x.set i ((A.replaced b tolerance recording i).value / divisor) i.isLt) found.1,
          columns.foldl (fun log i =>
            log.record fun _ => A.unknownStep b tolerance recording divisor i) found.2) := by
  induction columns generalizing found with
  | nil => rfl
  | cons i rest ih =>
      rw [List.foldlM_cons, outOfRange?]
      cases hi : Scalar.isFinite (A.replaced b tolerance recording i).value with
      | false =>
          -- the loop ends here, whatever the later columns are
          rw [cramerUnknown_of_not_finite hi, List.find?_cons_of_pos (by rw [hi]; rfl)]
          rfl
      | true =>
          rw [cramerUnknown_of_finite hdivisor hi,
            List.find?_cons_of_neg (by rw [hi]; exact Bool.false_ne_true)]
          exact ih _

/-- The determinant of the system is tested against the tolerance first. -/
theorem cramer_of_lt
    (hlt : Scalar.lt (Scalar.abs (A.triangulate tolerance (.start recording)).value) tolerance =
      true) :
    A.cramer b tolerance recording =
      .error (.singular (A.triangulate tolerance (.start recording)).value tolerance
        (A.triangulate tolerance (.start recording)).singularColumn) := by
  rw [cramer, hlt]
  rfl

/-- Then it is tested for being finite. -/
theorem cramer_of_not_finite
    (hlt : Scalar.lt (Scalar.abs (A.triangulate tolerance (.start recording)).value) tolerance =
      false)
    (hfinite : Scalar.isFinite (A.triangulate tolerance (.start recording)).value = false) :
    A.cramer b tolerance recording =
      .error (.notFinite none (A.triangulate tolerance (.start recording)).value) := by
  rw [cramer, hlt, hfinite]
  rfl

/-- **Then the loop decides**: with a divisor that is not zero, the first column out of range is
reported, and without one the quotients are the answer. -/
theorem cramer_of_finite
    (hlt : Scalar.lt (Scalar.abs (A.triangulate tolerance (.start recording)).value) tolerance =
      false)
    (hfinite : Scalar.isFinite (A.triangulate tolerance (.start recording)).value = true)
    (hdivisor : Scalar.isZero (A.triangulate tolerance (.start recording)).value = false) :
    A.cramer b tolerance recording =
      match A.outOfRange? b tolerance recording (List.finRange n) with
      | some i => .error (.notFinite (some i) (A.replaced b tolerance recording i).value)
      | none => .ok (A.quotients b tolerance recording) := by
  rw [cramer, hlt, hfinite]
  simp only [Bool.not_true, Bool.false_eq_true, if_false, foldlM_cramerUnknown hdivisor]
  cases A.outOfRange? b tolerance recording (List.finRange n) with
  | some i => rfl
  | none =>
      simp only [foldl_set_finRange]
      rfl

/-- **The three endings**: a determinant of the system that is below the tolerance, a determinant out
of range, and the quotients. -/
theorem cramer_cases
    (hdivisor : Scalar.lt (Scalar.abs (A.triangulate tolerance (.start recording)).value)
      tolerance = false →
      Scalar.isZero (A.triangulate tolerance (.start recording)).value = false) :
    (Scalar.lt (Scalar.abs (A.triangulate tolerance (.start recording)).value) tolerance = true ∧
      A.cramer b tolerance recording =
        .error (.singular (A.triangulate tolerance (.start recording)).value tolerance
          (A.triangulate tolerance (.start recording)).singularColumn)) ∨
    (Scalar.lt (Scalar.abs (A.triangulate tolerance (.start recording)).value) tolerance = false ∧
      ∃ column d, A.cramer b tolerance recording = .error (.notFinite column d)) ∨
    (Scalar.lt (Scalar.abs (A.triangulate tolerance (.start recording)).value) tolerance = false ∧
      A.cramer b tolerance recording = .ok (A.quotients b tolerance recording)) := by
  cases hlt : Scalar.lt (Scalar.abs (A.triangulate tolerance (.start recording)).value)
      tolerance with
  | true => exact .inl ⟨rfl, cramer_of_lt hlt⟩
  | false =>
      cases hfinite : Scalar.isFinite (A.triangulate tolerance (.start recording)).value with
      | false => exact .inr (.inl ⟨rfl, _, _, cramer_of_not_finite hlt hfinite⟩)
      | true =>
          have hloop := cramer_of_finite (b := b) hlt hfinite (hdivisor hlt)
          cases hcolumn : A.outOfRange? b tolerance recording (List.finRange n) with
          | some i =>
              rw [hcolumn] at hloop
              exact .inr (.inl ⟨rfl, _, _, hloop⟩)
          | none =>
              rw [hcolumn] at hloop
              exact .inr (.inr ⟨rfl, hloop⟩)

/-- An answer of Cramer's rule consists of the quotients, and the determinant of the system is not
below the tolerance. -/
theorem cramer_of_ok {c : CramerSolution α n}
    (hdivisor : Scalar.lt (Scalar.abs (A.triangulate tolerance (.start recording)).value)
      tolerance = false → Scalar.isZero (A.triangulate tolerance (.start recording)).value = false)
    (h : A.cramer b tolerance recording = .ok c) :
    Scalar.lt (Scalar.abs (A.triangulate tolerance (.start recording)).value) tolerance = false ∧
      c = A.quotients b tolerance recording := by
  obtain ⟨_, hcramer⟩ | ⟨_, _, _, hcramer⟩ | ⟨hlt, hcramer⟩ := cramer_cases (b := b) hdivisor
  · exact nomatch h.symm.trans hcramer
  · exact nomatch h.symm.trans hcramer
  · exact ⟨hlt, Except.ok.inj (h.symm.trans hcramer)⟩

/-- A system that is refused as singular is refused with its determinant and the column where the
reduction stalled. -/
theorem cramer_of_singular {D t : α} {column : Option Nat}
    (hdivisor : Scalar.lt (Scalar.abs (A.triangulate tolerance (.start recording)).value)
      tolerance = false → Scalar.isZero (A.triangulate tolerance (.start recording)).value = false)
    (h : A.cramer b tolerance recording = .error (.singular D t column)) :
    D = (A.triangulate tolerance (.start recording)).value ∧ t = tolerance ∧
      column = (A.triangulate tolerance (.start recording)).singularColumn := by
  obtain ⟨_, hcramer⟩ | ⟨_, _, _, hcramer⟩ | ⟨_, hcramer⟩ := cramer_cases (b := b) hdivisor
  · cases h.symm.trans hcramer
    exact ⟨rfl, rfl, rfl⟩
  · exact nomatch h.symm.trans hcramer
  · exact nomatch h.symm.trans hcramer

/-- With a log, Cramer's rule records the determinant of the system, then every unknown in order,
then the solution. -/
theorem quotients_steps? (A : Tableau α n n) (b : Vector α n) (tolerance : α) :
    (A.quotients b tolerance true).log.steps? =
      let main := A.triangulate tolerance .empty
      some (.determinantValue main.value (some A.toLists) main.log.steps ::
        (List.finRange n).map (A.unknownStep b tolerance true main.value) ++
          [.final (A.quotients b tolerance true).solution.toList none]) := by
  simp only [quotients, Log.steps?_record, Log.foldl_record]
  rfl

/-- Without a log it records nothing. -/
theorem quotients_steps?_off (A : Tableau α n n) (b : Vector α n) (tolerance : α) :
    (A.quotients b tolerance false).log.steps? = none := by
  simp only [quotients, Log.steps?_record, Log.foldl_record]
  rfl

/-! ## Forgetting the log -/

/-- What the loop over the columns has found, with nothing recorded. -/
def unloggedFound (found : Vector α n × Log α) : Vector α n × Log α := (found.1, .off)

/-- One turn of the loop does not read the log, nor those of the determinants. -/
theorem cramerUnknown_unlogged (A : Tableau α n n) (b : Vector α n) (tolerance : α)
    (recording : Bool) (divisor : α) (found : Vector α n × Log α) (i : Fin n) :
    A.cramerUnknown b tolerance divisor false (unloggedFound found) i =
      (A.cramerUnknown b tolerance divisor recording found i).map unloggedFound := by
  have hvalue : ((A.setColumn i b).triangulate tolerance (.start false)).value =
      ((A.setColumn i b).triangulate tolerance (.start recording)).value :=
    ((A.setColumn i b).triangulate_value_unlogged tolerance (.start recording)).symm
  simp only [cramerUnknown, hvalue]
  split
  · rfl
  · split
    · rfl
    · rfl

/-- **Cramer's rule ends the same with and without a log.** -/
theorem cramer_unlogged (A : Tableau α n n) (b : Vector α n) (tolerance : α) (recording : Bool) :
    A.cramer b tolerance false =
      (A.cramer b tolerance recording).map fun c => { c with log := .off } := by
  have hvalue : (A.triangulate tolerance (.start false)).value =
      (A.triangulate tolerance (.start recording)).value :=
    (A.triangulate_value_unlogged tolerance (.start recording)).symm
  have hcolumn : (A.triangulate tolerance (.start false)).singularColumn =
      (A.triangulate tolerance (.start recording)).singularColumn :=
    (A.triangulate_singularColumn_unlogged tolerance (.start recording)).symm
  have hturn (found : Vector α n × Log α) (i : Fin n) :=
    A.cramerUnknown_unlogged b tolerance recording
      (A.triangulate tolerance (.start recording)).value found i
  rw [cramer, cramer, hvalue, hcolumn]
  cases Scalar.lt (Scalar.abs (A.triangulate tolerance (.start recording)).value) tolerance with
  | true => rfl
  | false =>
      cases Scalar.isFinite (A.triangulate tolerance (.start recording)).value with
      | false => rfl
      | true =>
          simp only [Bool.not_true, Bool.false_eq_true, if_false]
          have hloop := foldlM_map_state unloggedFound hturn (List.finRange n)
            (Vector.replicate n 0, (Log.start recording).record fun _ =>
              .determinantValue (A.triangulate tolerance (.start recording)).value
                (some A.toLists) (A.triangulate tolerance (.start recording)).log.steps)
          refine (congrArg (· >>= _) hloop).trans ?_
          cases List.foldlM (A.cramerUnknown b tolerance _ recording) _ (List.finRange n) with
          | error e => rfl
          | ok found => rfl

end Tableau

end RowReduction
