import RowReduction.Proofs.Binary64.MultiplyBack
import RowReduction.Proofs.System.Calls
import RowReduction.System.Hardware

/-!
Numbers as tolerances. A number is a usable tolerance exactly when it is finite and positive, and one
that is not is refused as invalid: every number of binary64, and every integer that rounds into its
range. An integer beyond the range is refused as well, but as too large. Whatever the reading of the
tolerance ends with comes before everything else that a call may object to.
-/
namespace RowReduction

namespace Binary64

/-- A finite number is above zero when the rational number that it is is positive. -/
theorem zero_lt_iff {x : Binary64} (hx : x.isFinite = true) : zero.lt x = true ↔ 0 < x.toRat := by
  have hunit : (0 : ℚ) < 2 ^ 1074 := by positivity
  cases x with
  | nan => exact nomatch hx
  | infinite s => exact nomatch hx
  | finite s m =>
      rw [toRat_finite]
      cases s with
      | false =>
          have hlt : zero.lt (finite false m) = Magnitude.zero.lt m := rfl
          have hzero : Magnitude.zero.units = 0 := rfl
          rw [hlt, Magnitude.lt_iff_units_lt, hzero, if_neg Bool.false_ne_true,
            div_pos_iff_of_pos_right hunit, Nat.cast_pos]
      | true =>
          rw [if_pos rfl]
          exact iff_of_false Bool.false_ne_true
            (not_lt.mpr (neg_nonpos.mpr (div_nonneg (Nat.cast_nonneg _) hunit.le)))

/-- The least positive number. -/
theorem exists_toRat_eq_unit : ∃ y : Binary64, y.isFinite = true ∧ y.toRat = 1 / 2 ^ 1074 :=
  ⟨finite false ⟨1, 0, by decide, by decide, .inl rfl⟩, rfl, rfl⟩

/-- **Rounding to nearest keeps the sign of an integer in range.** The least positive number is
closer to a positive integer than everything below it. -/
theorem zero_lt_ofInt_iff {i : ℤ} (hfinite : (ofInt i).isFinite = true) :
    zero.lt (ofInt i) = true ↔ 0 < i := by
  have hnearest := isNearest_ofInt_of_isFinite hfinite
  rw [zero_lt_iff hfinite]
  rcases lt_or_ge 0 i with hpos | hneg
  · obtain ⟨least, hfinite, hunit⟩ := exists_toRat_eq_unit
    have hleast : 0 < least.toRat := by
      rw [hunit]
      exact div_pos one_pos (by positivity)
    have hbelow : least.toRat ≤ i := by
      rw [hunit]
      calc (1 / 2 ^ 1074 : ℚ) ≤ 1 := div_le_one_of_le₀ (one_le_pow₀ one_le_two) (by positivity)
        _ ≤ i := by exact_mod_cast hpos
    have hclose := hnearest.closest least hfinite
    rw [abs_of_nonpos (sub_nonpos.mpr hbelow)] at hclose
    have hfar := (abs_le.mp hclose).1
    exact iff_of_true (by linarith) hpos
  · have hzero : zero.toRat = 0 := zero_div _
    have hle : (i : ℚ) ≤ 0 := by exact_mod_cast hneg
    have hclose := hnearest.closest zero rfl
    rw [hzero, abs_sub_comm 0, sub_zero, abs_of_nonpos hle] at hclose
    have hfar := (abs_le.mp hclose).2
    exact iff_of_false (by linarith) (by omega)

end Binary64

namespace Tolerance

open Binary64

variable {name : String} {x : Binary64}

/-- An integer is a usable tolerance if it is positive and in range. -/
theorem isUsable_ofInt_iff (i : ℤ) : IsUsable (ofInt i) ↔ 0 < i ∧ i.natAbs < overflow := by
  rw [IsUsable, isFinite_ofInt_iff, and_comm]
  constructor
  · rintro ⟨hpos, hrange⟩
    exact ⟨(zero_lt_ofInt_iff ((isFinite_ofInt_iff i).mpr hrange)).mp hpos, hrange⟩
  · rintro ⟨hpos, hrange⟩
    exact ⟨(zero_lt_ofInt_iff ((isFinite_ofInt_iff i).mpr hrange)).mpr hpos, hrange⟩

/-- A value that is read as a number is a tolerance, or is refused as one, for that number. -/
theorem ofValue_of_real {v : Value} (h : v.real = .ok x) (name : String) :
    ofValue v name = if IsUsable x then .ok x else .error (.toleranceOutOfRange name x) := by
  rw [ofValue, h]
  dsimp only [require]
  by_cases husable : IsUsable x
  · rw [dif_pos husable, if_pos husable]
    rfl
  · rw [dif_neg husable, if_neg husable]
    rfl

theorem ofValue_int_of_overflow {i : ℤ} (h : overflow ≤ i.natAbs) (name : String) :
    ofValue (.int i) name = .error .integerTooLarge := by
  have hrange : ¬ (ofInt i).isFinite = true := by
    rw [isFinite_ofInt_iff]
    omega
  have hreal : (Value.int i).real = .error .integerTooLarge := if_neg hrange
  rw [ofValue, hreal]

/-- The promise made about a number that is handed in as a tolerance: it is read as itself if it is
finite and positive, and refused as invalid otherwise. -/
def KeepsPromise (v : Value) (name : String) : Prop :=
  (IsUsable v.number ∧ ofValue v name = .ok v.number) ∨
    (¬ IsUsable v.number ∧ ∃ fault, ofValue v name = .error fault ∧
      fault.kind.isA .validation = true)

theorem keepsPromise_of_real {v : Value} (h : v.real = .ok v.number) (name : String) :
    KeepsPromise v name := by
  rw [KeepsPromise, ofValue_of_real h]
  by_cases husable : IsUsable v.number
  · rw [if_pos husable]
    exact .inl ⟨husable, rfl⟩
  · rw [if_neg husable]
    exact .inr ⟨husable, _, rfl, rfl⟩

/-- **For integers the promise ends with the range.** -/
theorem keepsPromise_int_iff (i : ℤ) (name : String) :
    KeepsPromise (.int i) name ↔ i.natAbs < overflow := by
  constructor
  · intro h
    by_contra hlarge
    have hfault := ofValue_int_of_overflow (Nat.not_lt.mp hlarge) name
    rcases h with ⟨_, hread⟩ | ⟨_, fault, hrefused, hkind⟩
    · rw [hfault] at hread
      cases hread
    · rw [hfault] at hrefused
      cases hrefused
      exact nomatch hkind
  · intro h
    apply keepsPromise_of_real
    exact if_pos ((isFinite_ofInt_iff i).mpr h)

end Tolerance

/-! ## Calls with a tolerance -/

/-- Nothing else is looked at before the tolerance. -/
theorem solve_of_unreadable_tolerance {v : Value} {fault : Fault}
    (h : Tolerance.ofValue v "tol" = .error fault) (routines : MatrixRoutines)
    (source : SystemSource) (b method trace : Value) :
    solve routines source b ⟨method, trace, v⟩ = .error fault := by
  rw [solve, h]
  rfl

theorem determinant_of_unreadable_tolerance {v : Value} {fault : Fault}
    (h : Tolerance.ofValue v "tol" = .error fault) (source : MatrixSource) (trace : Value) :
    determinant source ⟨trace, v⟩ = .error fault := by
  rw [determinant, h]
  rfl

theorem LinearSystem.solve_tolerance {s : LinearSystem} {routines : MatrixRoutines}
    {method : Method} {tolerance : Binary64} {recording : Bool} {x : Solution}
    (h : s.solve routines method tolerance recording = .ok x) :
    x.tolerance = tolerance := by
  cases method with
  | gaussJordan =>
      simp only [solve] at h
      split at h
      · cases h
      · cases h
        rfl
  | cramer =>
      simp only [solve] at h
      split at h
      · cases h
      · cases h
        rfl

/-- The tolerance that has been read is the one that a solution is computed with. -/
theorem solve_tolerance_of_ok {routines : MatrixRoutines} {v b method trace : Value}
    {source : SystemSource} {tolerance : Binary64}
    (htol : Tolerance.ofValue v "tol" = .ok tolerance) {x : Solution}
    (h : solve routines source b ⟨method, trace, v⟩ = .ok x) : x.tolerance = tolerance := by
  rw [solve, htol] at h
  obtain ⟨_, hread, h⟩ := eq_ok_of_bind_eq_ok h
  cases hread
  obtain ⟨_, _, h⟩ := eq_ok_of_bind_eq_ok h
  obtain ⟨_, _, h⟩ := eq_ok_of_bind_eq_ok h
  obtain ⟨_, _, h⟩ := eq_ok_of_bind_eq_ok h
  exact LinearSystem.solve_tolerance h

theorem determinant_tolerance_of_ok {v trace : Value} {source : MatrixSource}
    {tolerance : Binary64} (htol : Tolerance.ofValue v "tol" = .ok tolerance)
    {x : DeterminantSolution} (h : determinant source ⟨trace, v⟩ = .ok x) :
    x.tolerance = tolerance := by
  rw [determinant, htol] at h
  obtain ⟨_, hread, h⟩ := eq_ok_of_bind_eq_ok h
  cases hread
  obtain ⟨_, _, h⟩ := eq_ok_of_bind_eq_ok h
  obtain ⟨_, _, h⟩ := eq_ok_of_bind_eq_ok h
  cases h
  rfl

/-- **Numbers as tolerances**, of whatever size. Numbers of binary64 keep the promise; integers keep
it exactly where they are in range, and there the number that is read is nearest to the integer and
is refused only if the integer is not positive. Beyond the range an integer is not rounded to a
finite number, and is refused as too large, not as invalid. Every call hands on a refusal before it
looks at its other arguments, and otherwise computes with the number that has been read. -/
theorem Tolerance.number_kept_or_refused (x : Binary64) (i : ℤ) (name : String) :
    KeepsPromise (.float x) name ∧
    (KeepsPromise (.int i) name ↔ i.natAbs < Binary64.overflow) ∧
    (i.natAbs < Binary64.overflow →
      Binary64.IsNearest i (.ofInt i) ∧ (IsUsable (.ofInt i) ↔ 0 < i)) ∧
    (Binary64.overflow ≤ i.natAbs →
      (Binary64.ofInt i).isFinite = false ∧ ofValue (.int i) name = .error .integerTooLarge) ∧
    ∀ v, (∀ fault, ofValue v "tol" = .error fault →
        (∀ routines source b method trace,
          solve routines source b ⟨method, trace, v⟩ = .error fault) ∧
        ∀ source trace, determinant source ⟨trace, v⟩ = .error fault) ∧
      ∀ tolerance, ofValue v "tol" = .ok tolerance →
        (∀ routines source b method trace x,
          solve routines source b ⟨method, trace, v⟩ = .ok x → x.tolerance = tolerance) ∧
        ∀ source trace x, determinant source ⟨trace, v⟩ = .ok x → x.tolerance = tolerance := by
  refine ⟨keepsPromise_of_real rfl name, keepsPromise_int_iff i name, ?_, ?_, fun v => ⟨?_, ?_⟩⟩
  · intro hrange
    refine ⟨Binary64.isNearest_ofInt_of_isFinite ((Binary64.isFinite_ofInt_iff i).mpr hrange), ?_⟩
    rw [isUsable_ofInt_iff]
    exact and_iff_left hrange
  · intro hlarge
    have hrange : ¬ (Binary64.ofInt i).isFinite = true := by
      rw [Binary64.isFinite_ofInt_iff]
      omega
    exact ⟨Bool.eq_false_iff.mpr hrange, ofValue_int_of_overflow hlarge name⟩
  · intro fault hfault
    exact ⟨solve_of_unreadable_tolerance hfault, determinant_of_unreadable_tolerance hfault⟩
  · intro tolerance hread
    constructor
    · intro routines source b method trace x hx
      exact solve_tolerance_of_ok hread hx
    · intro source trace x hx
      exact determinant_tolerance_of_ok hread hx

/-- The greatest integer in range is read as a tolerance and the next one is not, and a call refuses
not-a-number whatever else it is given. -/
theorem Tolerance.number_kept_or_refused_at_the_end_of_the_range :
    (∃ x, Binary64.IsNearest (Binary64.overflow - 1 : ℤ) x ∧
      ofValue (.int (Binary64.overflow - 1)) "tol" = .ok x) ∧
    ¬ KeepsPromise (.int Binary64.overflow) "tol" ∧
    ∃ fault, fault.kind.isA .validation = true ∧
      ∀ routines source b method trace,
        solve routines source b ⟨method, trace, .float .nan⟩ = .error fault := by
  have hpos : 1 < Binary64.overflow := by
    have hfactor : 0 < 2 ^ 970 := by positivity
    rw [Binary64.overflow]
    omega
  have hlast : (Binary64.overflow - 1 : ℤ).natAbs < Binary64.overflow := by omega
  obtain ⟨hfloat, hint, hrange, _, hcalls⟩ :=
    Tolerance.number_kept_or_refused .nan (Binary64.overflow - 1) "tol"
  obtain ⟨_, hbeyond, _⟩ := Tolerance.number_kept_or_refused .nan Binary64.overflow "tol"
  refine ⟨?_, ?_, ?_⟩
  · obtain ⟨hnearest, husable⟩ := hrange hlast
    rcases hint.mpr hlast with ⟨_, hread⟩ | ⟨hunusable, _⟩
    · exact ⟨_, hnearest, hread⟩
    · exact absurd (husable.mpr (by omega)) hunusable
  · rw [hbeyond, Int.natAbs_natCast]
    exact Nat.lt_irrefl _
  · rcases hfloat with ⟨husable, _⟩ | ⟨_, fault, hfault, hkind⟩
    · exact absurd husable (by decide)
    · exact ⟨fault, hkind, ((hcalls _).1 fault hfault).1⟩

/-- The least integer beyond the range is refused as too large, by the check and by every call, and
that is not what a bad argument is to be refused as. -/
theorem Tolerance.refuses_integer_as_too_large :
    ofValue (.int Binary64.overflow) "tol" = .error .integerTooLarge ∧
      Fault.integerTooLarge.kind.isA .validation = false ∧
      solve .hardware (.value .none) .none ⟨.none, .none, .int Binary64.overflow⟩ =
        .error .integerTooLarge ∧
      determinant (.value .none) ⟨.none, .int Binary64.overflow⟩ = .error .integerTooLarge := by
  have hlarge : Binary64.overflow ≤ (Binary64.overflow : ℤ).natAbs := (Int.natAbs_natCast _).ge
  have hfault := ofValue_int_of_overflow hlarge "tol"
  exact ⟨hfault, rfl, solve_of_unreadable_tolerance hfault _ _ _ _ _,
    determinant_of_unreadable_tolerance hfault _ _⟩

end RowReduction
