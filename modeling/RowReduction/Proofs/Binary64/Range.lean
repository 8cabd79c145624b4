import Mathlib
import RowReduction.Scalar

/-!
The range of binary64 numbers. A value rounds to infinity from halfway between the largest finite
number and the next power of two on, so a quotient is finite exactly when its exact value is below
that. A sum or a difference with a term that is not finite is not finite either, and neither is a
quotient with such a dividend.
-/
namespace RowReduction

/-! ## Rounding to an integer -/

theorem div_le_roundHalfEven (num den : Nat) : num / den ≤ roundHalfEven num den := by
  simp only [roundHalfEven]
  split
  · exact le_rfl
  · split
    · exact Nat.le_succ _
    · exact Nat.le_add_right _ _

theorem roundHalfEven_le (num den : Nat) : roundHalfEven num den ≤ num / den + 1 := by
  simp only [roundHalfEven]
  split
  · exact Nat.le_succ _
  · split
    · exact le_rfl
    · have := Nat.mod_lt (num / den) (by decide : 0 < 2)
      omega

/-- Between an odd integer and the next one, everything from halfway on is rounded up. -/
theorem roundHalfEven_of_odd {num den k : Nat} (hdiv : num / den = 2 * k + 1) :
    2 * k + 2 ≤ roundHalfEven num den ↔ den ≤ 2 * (num % den) := by
  simp only [roundHalfEven, hdiv]
  split
  · omega
  · split
    · omega
    · omega

/-- **Even integers are reached from halfway below them.** -/
theorem even_le_roundHalfEven_iff {num den : Nat} (hden : 0 < den) (k : Nat) :
    2 * k + 2 ≤ roundHalfEven num den ↔ (4 * k + 3) * den ≤ 2 * num := by
  have hnum := Nat.div_add_mod num den
  have hmod := Nat.mod_lt num hden
  rcases Nat.lt_trichotomy (num / den) (2 * k + 1) with hlt | heq | hgt
  · have hround := roundHalfEven_le num den
    have hfar : den * (num / den) ≤ den * (2 * k) := Nat.mul_le_mul_left den (by omega)
    have hhalf : 2 * (den * (2 * k)) + 2 * den ≤ (4 * k + 3) * den := by nlinarith
    omega
  · rw [roundHalfEven_of_odd heq]
    have hhalf : (4 * k + 3) * den = 2 * (den * (2 * k + 1)) + den := by ring
    rw [heq] at hnum
    omega
  · have hround := div_le_roundHalfEven num den
    have hfar : den * (2 * k + 2) ≤ den * (num / den) := Nat.mul_le_mul_left den hgt
    have hhalf : (4 * k + 3) * den ≤ 2 * (den * (2 * k + 2)) := by nlinarith
    omega

/-! ## The exponent of a quotient -/

theorem shiftLeft_cast (a k : Nat) : ((a <<< k : Nat) : ℚ) = a * 2 ^ (k : ℤ) := by
  rw [Nat.shiftLeft_eq]
  push_cast
  rw [zpow_natCast]

/-- The exponent is the integer part of the binary logarithm. -/
theorem binaryExponent_spec {num den : Nat} (hnum : 0 < num) (hden : 0 < den) :
    (2 : ℚ) ^ binaryExponent num den ≤ num / den ∧
      (num / den : ℚ) < 2 ^ (binaryExponent num den + 1) := by
  have hdenQ : (0 : ℚ) < den := by exact_mod_cast hden
  have hnumLow : (2 : ℚ) ^ (num.log2 : ℤ) ≤ num := by
    rw [zpow_natCast]
    exact_mod_cast Nat.log2_self_le hnum.ne'
  have hnumHigh : (num : ℚ) < 2 ^ ((num.log2 : ℤ) + 1) := by
    exact_mod_cast Nat.lt_log2_self
  have hdenLow : (2 : ℚ) ^ (den.log2 : ℤ) ≤ den := by
    rw [zpow_natCast]
    exact_mod_cast Nat.log2_self_le hden.ne'
  have hdenHigh : (den : ℚ) < 2 ^ ((den.log2 : ℤ) + 1) := by
    exact_mod_cast Nat.lt_log2_self
  -- the comparison of the code decides between the two exponents that are possible
  have hcompare : den <<< num.log2 ≤ num <<< den.log2 ↔
      (2 : ℚ) ^ ((num.log2 : ℤ) - den.log2) ≤ num / den := by
    rw [← Nat.cast_le (α := ℚ), shiftLeft_cast, shiftLeft_cast, zpow_sub₀ two_ne_zero,
      div_le_div_iff₀ (by positivity) hdenQ, mul_comm (den : ℚ)]
  simp only [binaryExponent]
  split
  · rename_i hle
    refine ⟨hcompare.mp hle, ?_⟩
    rw [div_lt_iff₀ hdenQ]
    calc (num : ℚ) < 2 ^ ((num.log2 : ℤ) + 1) := hnumHigh
      _ = 2 ^ ((num.log2 : ℤ) - den.log2 + 1) * 2 ^ (den.log2 : ℤ) := by
        rw [← zpow_add₀ two_ne_zero]
        congr 1
        ring
      _ ≤ 2 ^ ((num.log2 : ℤ) - den.log2 + 1) * den := by gcongr
  · rename_i hlt
    rw [sub_add_cancel]
    refine ⟨?_, not_le.mp fun h => hlt (hcompare.mpr h)⟩
    rw [le_div_iff₀ hdenQ]
    calc (2 : ℚ) ^ ((num.log2 : ℤ) - den.log2 - 1) * den
        ≤ 2 ^ ((num.log2 : ℤ) - den.log2 - 1) * 2 ^ ((den.log2 : ℤ) + 1) := by gcongr
      _ = 2 ^ (num.log2 : ℤ) := by
        rw [← zpow_add₀ two_ne_zero]
        congr 1
        ring
      _ ≤ num := hnumLow

namespace Magnitude

/-- A significand of at most 53 bits, carried over or not, has no place from exponent 2046 on. -/
theorem pack?_eq_none_iff {significand exponent : Nat} (hle : significand ≤ 2 ^ 53)
    (hnormal : exponent = 0 ∨ 2 ^ 52 ≤ significand) :
    pack? significand exponent = none ↔
      2046 ≤ exponent ∨ exponent = 2045 ∧ 2 ^ 53 ≤ significand := by
  simp only [pack?]
  split
  · rename_i h
    simp only [reduceCtorEq, false_iff]
    omega
  · rename_i h
    split
    · rename_i h'
      simp only [reduceCtorEq, false_iff]
      omega
    · rename_i h'
      simp only [true_iff]
      omega

/-- The unit in the last place is so small that 53 bits reach the value, and no smaller than it has
to be. -/
theorem unitExponent_spec {num den : Nat} (hnum : 0 < num) (hden : 0 < den) (shift : ℤ) :
    (num / den : ℚ) * 2 ^ shift < 2 ^ 53 * 2 ^ unitExponent num den shift ∧
      (unitExponent num den shift = 0 ∨
        2 ^ 52 * 2 ^ unitExponent num den shift ≤ (num / den : ℚ) * 2 ^ shift) := by
  obtain ⟨hlow, hhigh⟩ := binaryExponent_spec hnum hden
  have hcast : ((unitExponent num den shift : ℕ) : ℤ) =
      max (binaryExponent num den + shift - 52) 0 := Int.ofNat_toNat _
  constructor
  · calc (num / den : ℚ) * 2 ^ shift < 2 ^ (binaryExponent num den + 1) * 2 ^ shift := by gcongr
      _ = 2 ^ (binaryExponent num den + 1 + shift) := (zpow_add₀ two_ne_zero _ _).symm
      _ ≤ 2 ^ (53 + (unitExponent num den shift : ℤ)) :=
        zpow_le_zpow_right₀ one_le_two (by omega)
      _ = 2 ^ 53 * 2 ^ unitExponent num den shift := by
        rw [zpow_add₀ two_ne_zero, zpow_natCast]
        rfl
  · by_cases hzero : unitExponent num den shift = 0
    · exact .inl hzero
    · right
      calc (2 : ℚ) ^ 52 * 2 ^ unitExponent num den shift
          = 2 ^ (52 + (unitExponent num den shift : ℤ)) := by
            rw [zpow_add₀ two_ne_zero, zpow_natCast]
            rfl
        _ = 2 ^ binaryExponent num den * 2 ^ shift := by
          rw [← zpow_add₀ two_ne_zero]
          congr 1
          omega
        _ ≤ (num / den : ℚ) * 2 ^ shift := by gcongr

/-- The quotient that is rounded counts units in the last place. -/
theorem scaled_quotient (num den exponent : Nat) (shift : ℤ) :
    ((num <<< (shift - exponent).toNat : ℕ) : ℚ) / (den <<< ((exponent : ℤ) - shift).toNat : ℕ) *
      2 ^ exponent = (num / den : ℚ) * 2 ^ shift := by
  rw [shiftLeft_cast, shiftLeft_cast, mul_div_mul_comm, mul_assoc, ← zpow_sub₀ two_ne_zero,
    ← zpow_natCast, ← zpow_add₀ two_ne_zero]
  congr 2
  omega

/-- The significand that a value is rounded to has at most 53 bits, or carries over, and carries
over from halfway below the next power of two on. -/
theorem significand_spec {num den : Nat} (hnum : 0 < num) (hden : 0 < den) (shift : ℤ) :
    let exponent := unitExponent num den shift
    let significand :=
      roundHalfEven (num <<< (shift - exponent).toNat) (den <<< ((exponent : ℤ) - shift).toNat)
    significand ≤ 2 ^ 53 ∧ (exponent = 0 ∨ 2 ^ 52 ≤ significand) ∧
      (2 ^ 53 ≤ significand ↔
        ((2 ^ 54 - 1) * 2 ^ exponent : ℚ) ≤ 2 * ((num / den : ℚ) * 2 ^ shift)) := by
  intro exponent significand
  obtain ⟨hlt, hnormal⟩ := unitExponent_spec hnum hden shift
  have hscale := scaled_quotient num den exponent shift
  have hD : 0 < den <<< ((exponent : ℤ) - shift).toNat := by
    rw [Nat.shiftLeft_eq]
    positivity
  set N := num <<< (shift - exponent).toNat
  set D := den <<< ((exponent : ℤ) - shift).toNat
  have hDQ : (0 : ℚ) < D := by exact_mod_cast hD
  have hunit : (0 : ℚ) < 2 ^ exponent := by positivity
  rw [← hscale] at hlt hnormal ⊢
  have hN : N < 2 ^ 53 * D := by
    have hquotient : (N : ℚ) / D < 2 ^ 53 := lt_of_mul_lt_mul_right hlt hunit.le
    rw [div_lt_iff₀ hDQ] at hquotient
    exact_mod_cast hquotient
  refine ⟨?_, ?_, ?_⟩
  · exact (roundHalfEven_le N D).trans ((Nat.div_lt_iff_lt_mul hD).mpr hN)
  · refine hnormal.imp_right fun hle => ?_
    have hquotient : (2 : ℚ) ^ 52 ≤ N / D := le_of_mul_le_mul_right hle hunit
    rw [le_div_iff₀ hDQ] at hquotient
    have hDN : 2 ^ 52 * D ≤ N := by exact_mod_cast hquotient
    exact ((Nat.le_div_iff_mul_le hD).mpr hDN).trans (div_le_roundHalfEven N D)
  · have hcarry : 2 ^ 53 ≤ significand ↔ (2 ^ 54 - 1) * D ≤ 2 * N :=
      even_le_roundHalfEven_iff hD (2 ^ 52 - 1)
    have hbound : (2 ^ 54 - 1 : ℚ) = ((2 ^ 54 - 1 : ℕ) : ℚ) := by norm_num
    have htwice : (2 * N : ℚ) = ((2 * N : ℕ) : ℚ) := by push_cast; rfl
    rw [hcarry, ← mul_assoc, mul_le_mul_iff_left₀ hunit, ← mul_div_assoc, le_div_iff₀ hDQ, hbound,
      htwice, ← Nat.cast_mul, Nat.cast_le]

/-- **When a value is out of range**: from halfway between the largest magnitude and the next power
of two on. -/
theorem round?_eq_none_iff (num : Nat) {den : Nat} (hden : 0 < den) (shift : ℤ) :
    round? num den shift = none ↔
      ((2 ^ 54 - 1) * 2 ^ 2044 : ℚ) ≤ (num / den : ℚ) * 2 ^ shift := by
  have hlarge : (0 : ℚ) < 2 ^ 2044 := by positivity
  have hbelow (e : ℕ) (he : e ≤ 2044) : (2 : ℚ) ^ e ≤ 2 ^ 2044 := pow_le_pow_right₀ one_le_two he
  have hlast : (2 : ℚ) ^ 2045 = 2 ^ 2044 * 2 := pow_succ _ _
  have habove (e : ℕ) (he : 2046 ≤ e) : (2 : ℚ) ^ 2044 * 2 * 2 ≤ 2 ^ e := by
    rw [← pow_succ, ← pow_succ]
    exact pow_le_pow_right₀ one_le_two he
  rcases Nat.eq_zero_or_pos num with rfl | hnum
  · have hzero : ((0 : ℕ) / den : ℚ) * 2 ^ shift = 0 := by simp
    rw [hzero]
    refine iff_of_false (by simp [round?]) (not_le.mpr ?_)
    exact mul_pos (by norm_num) hlarge
  obtain ⟨hlt, hnormal⟩ := unitExponent_spec hnum hden shift
  obtain ⟨hle, hbits, hcarry⟩ := significand_spec hnum hden shift
  rw [round?, if_neg hnum.ne']
  refine (pack?_eq_none_iff hle hbits).trans ?_
  generalize (num / den : ℚ) * 2 ^ shift = value at hlt hnormal hcarry ⊢
  generalize unitExponent num den shift = exponent at hlt hnormal hcarry ⊢
  generalize (2 : ℚ) ^ 2044 = large at *
  rcases Nat.lt_trichotomy exponent 2045 with hexponent | rfl | hexponent
  · -- 53 bits in this place are too few
    have hunit := hbelow exponent (by omega)
    refine iff_of_false (by omega) (not_le.mpr ?_)
    generalize (2 : ℚ) ^ exponent = unit at hlt hunit
    linarith only [hlt, hunit, hlarge]
  · -- in the last place it depends on the carry
    rw [hlast] at hcarry
    refine Iff.trans ⟨?_, ?_⟩ (hcarry.trans ⟨?_, ?_⟩)
    · omega
    · omega
    · intro h
      linarith
    · intro h
      linarith
  · -- beyond the last place every value is out of range
    have hunit := habove exponent hexponent
    have hvalue := hnormal.resolve_left (by omega)
    refine iff_of_true (by omega) ?_
    generalize (2 : ℚ) ^ exponent = unit at hunit hvalue
    linarith only [hunit, hvalue, hlarge]

end Magnitude

namespace Binary64

/-! ## Results out of range -/

/-- The least ratio of two numbers that rounds to infinity: `2 ^ 1024 - 2 ^ 970`, halfway between the
largest finite number and the next power of two. -/
def overflow : Nat := (2 ^ 54 - 1) * 2 ^ 970

theorem overflow_cast : (overflow : ℚ) = (2 ^ 54 - 1) * 2 ^ 970 := by
  have hodd : ((2 ^ 54 - 1 : ℕ) : ℚ) = 2 ^ 54 - 1 := by norm_num
  rw [overflow, Nat.cast_mul, Nat.cast_pow, Nat.cast_two, hodd]

theorem isFinite_round_iff (negative : Bool) (num : Nat) {den : Nat} (hden : 0 < den) (shift : ℤ) :
    (round negative num den shift).isFinite = true ↔
      (num / den : ℚ) * 2 ^ shift < (2 ^ 54 - 1) * 2 ^ 2044 := by
  rw [← not_le, ← Magnitude.round?_eq_none_iff num hden, round]
  cases Magnitude.round? num den shift with
  | none => exact iff_of_false Bool.false_ne_true (not_not.mpr rfl)
  | some m => exact iff_of_true rfl (Option.some_ne_none m)

theorem isNaN_round (negative : Bool) (num den : Nat) (shift : ℤ) :
    (round negative num den shift).isNaN = false := by
  rw [round]
  cases Magnitude.round? num den shift <;> rfl

theorem natAbs_units_finite (s : Bool) (m : Magnitude) :
    (finite s m).units.natAbs = m.significand * 2 ^ m.exponent := by
  rw [← Nat.shiftLeft_eq]
  cases s with
  | false => exact Int.natAbs_natCast _
  | true => exact (Int.natAbs_neg _).trans (Int.natAbs_natCast _)

theorem div_finite (s t : Bool) {a b : Magnitude} (hb : b.isZero = false) :
    finite s a / finite t b =
      round (s != t) a.significand b.significand ((a.exponent : ℤ) - b.exponent + 1074) := by
  change (if b.isZero then _ else _) = _
  rw [hb]
  rfl

theorem significand_pos {m : Magnitude} (h : m.isZero = false) : 0 < m.significand := by
  have hne : (m.significand == 0) = false := h
  exact Nat.pos_of_ne_zero (by simpa using hne)

/-- The value that a quotient of finite numbers is rounded from, in units. -/
theorem quotient_value (a b : Magnitude) :
    (a.significand / b.significand : ℚ) * 2 ^ ((a.exponent : ℤ) - b.exponent + 1074) =
      (a.significand * 2 ^ a.exponent : ℚ) / (b.significand * 2 ^ b.exponent) * 2 ^ 1074 := by
  rw [zpow_add₀ two_ne_zero, zpow_sub₀ two_ne_zero, zpow_natCast, zpow_natCast, ← mul_assoc,
    div_mul_div_comm]
  rfl

/-- **When a quotient is in range**: when its exact value is. -/
theorem isFinite_div_iff {x y : Binary64} (hx : x.isFinite = true) (hy : y.isFinite = true)
    (hzero : y.isZero = false) :
    (x / y).isFinite = true ↔ x.units.natAbs < overflow * y.units.natAbs := by
  cases x with
  | nan => exact nomatch hx
  | infinite s => exact nomatch hx
  | finite s a =>
      cases y with
      | nan => exact nomatch hy
      | infinite t => exact nomatch hy
      | finite t b =>
          have hb : 0 < b.significand := significand_pos hzero
          have hbQ : (0 : ℚ) < b.significand := by exact_mod_cast hb
          have hbound : ((2 ^ 54 - 1) * 2 ^ 2044 : ℚ) = overflow * 2 ^ 1074 := by
            rw [overflow_cast, mul_assoc, ← pow_add]
          rw [div_finite s t hzero, isFinite_round_iff _ _ hb, quotient_value, hbound,
            mul_lt_mul_iff_left₀ (by positivity), div_lt_iff₀ (by positivity),
            natAbs_units_finite, natAbs_units_finite]
          exact_mod_cast Iff.rfl

/-- A quotient of finite numbers is a number, unless the divisor is zero. -/
theorem isNaN_div {x y : Binary64} (hx : x.isFinite = true) (hy : y.isFinite = true)
    (hzero : y.isZero = false) : (x / y).isNaN = false := by
  cases x with
  | nan => exact nomatch hx
  | infinite s => exact nomatch hx
  | finite s a =>
      cases y with
      | nan => exact nomatch hy
      | infinite t => exact nomatch hy
      | finite t b =>
          rw [div_finite s t hzero]
          exact isNaN_round _ _ _ _

/-! ## No way back into range -/

/-- A finite sum has finite terms. -/
theorem isFinite_of_add {x y : Binary64} (h : (x + y).isFinite = true) :
    x.isFinite = true ∧ y.isFinite = true := by
  cases x with
  | nan => exact nomatch h
  | infinite s =>
      cases y with
      | nan => exact nomatch h
      | infinite t => cases s <;> cases t <;> exact nomatch h
      | finite t b => exact nomatch h
  | finite s a =>
      cases y with
      | nan => exact nomatch h
      | infinite t => exact nomatch h
      | finite t b => exact ⟨rfl, rfl⟩

/-- A finite difference has finite terms. -/
theorem isFinite_of_sub {x y : Binary64} (h : (x - y).isFinite = true) :
    x.isFinite = true ∧ y.isFinite = true := by
  have hterms : x.isFinite = true ∧ y.neg.isFinite = true := isFinite_of_add h
  rwa [isFinite_neg] at hterms

/-- A finite quotient has a finite dividend; the divisor may be infinite. -/
theorem isFinite_of_div {x y : Binary64} (h : (x / y).isFinite = true) : x.isFinite = true := by
  cases x with
  | nan => exact nomatch h
  | infinite s => cases y <;> exact nomatch h
  | finite s a => rfl

end Binary64

end RowReduction
