import Mathlib
import RowReduction.Proofs.Binary64.Order
import RowReduction.Proofs.Binary64.Range

/-!
Operations that do not round. A value that a magnitude represents is rounded to that magnitude, so a
number over itself is one, one times a number is the number, and equal numbers have the difference
zero. The sign of a zero among the operands changes a result in nothing but the sign of a zero.
-/
namespace RowReduction

theorem roundHalfEven_mul_self (k : Nat) {den : Nat} (hden : 0 < den) :
    roundHalfEven (k * den) den = k := by
  simp [roundHalfEven, Nat.mul_div_cancel k hden, hden]

namespace Magnitude

/-- A value that 53 bits reach with one unit does not need a larger one. -/
theorem exponent_le_of_reached {value : ℚ} {e f : Nat} (hreached : value < 2 ^ 53 * 2 ^ e)
    (hneeded : f = 0 ∨ 2 ^ 52 * 2 ^ f ≤ value) : f ≤ e := by
  rcases hneeded with rfl | hle
  · exact Nat.zero_le e
  · have hpow : (2 : ℚ) ^ (52 + f) < 2 ^ (53 + e) := by
      rw [pow_add, pow_add]
      exact hle.trans_lt hreached
    have hexponent := (pow_lt_pow_iff_right₀ one_lt_two).mp hpow
    omega

/-- The unit in the last place at a magnitude is the unit that it counts. -/
theorem unitExponent_eq {num den : Nat} (hnum : 0 < num) (hden : 0 < den) {shift : ℤ}
    {m : Magnitude} (hvalue : (num / den : ℚ) * 2 ^ shift = m.significand * 2 ^ m.exponent) :
    unitExponent num den shift = m.exponent := by
  obtain ⟨hreached, hneeded⟩ := unitExponent_spec hnum hden shift
  have hlt : (m.significand : ℚ) < 2 ^ 53 := by exact_mod_cast m.significand_lt
  rw [hvalue] at hreached hneeded
  apply Nat.le_antisymm
  · exact exponent_le_of_reached (mul_lt_mul_of_pos_right hlt (by positivity)) hneeded
  · refine exponent_le_of_reached hreached (m.normal.imp_right fun hnormal => ?_)
    have hle : (2 : ℚ) ^ 52 ≤ m.significand := by exact_mod_cast hnormal
    exact mul_le_mul_of_nonneg_right hle (by positivity)

/-- **What a magnitude represents is rounded to it.** -/
theorem round?_eq_self {num den : Nat} (hden : 0 < den) {shift : ℤ} {m : Magnitude}
    (hvalue : (num / den : ℚ) * 2 ^ shift = m.significand * 2 ^ m.exponent) :
    round? num den shift = some m := by
  rcases Nat.eq_zero_or_pos num with rfl | hnum
  · have hzero : (m.significand : ℚ) * 2 ^ m.exponent = 0 := by
      rw [← hvalue, Nat.cast_zero, zero_div, zero_mul]
    have hsignificand : m.significand = 0 := by
      exact_mod_cast (mul_eq_zero.mp hzero).resolve_right (by positivity)
    have hm : m = zero := m.isZero_iff.mp (beq_iff_eq.mpr hsignificand)
    rw [hm]
    rfl
  · have hscale := scaled_quotient num den m.exponent shift
    have hD : 0 < den <<< ((m.exponent : ℤ) - shift).toNat := by
      rw [Nat.shiftLeft_eq]
      positivity
    rw [round?, if_neg hnum.ne', unitExponent_eq hnum hden hvalue]
    dsimp only
    set N := num <<< (shift - m.exponent).toNat
    set D := den <<< ((m.exponent : ℤ) - shift).toNat
    have hquotient : (N / D : ℚ) = m.significand := by
      rw [hvalue] at hscale
      exact mul_right_cancel₀ (by positivity) hscale
    have hDQ : (D : ℚ) ≠ 0 := by exact_mod_cast hD.ne'
    have hN : N = m.significand * D := by
      rw [div_eq_iff hDQ] at hquotient
      exact_mod_cast hquotient
    rw [hN, roundHalfEven_mul_self _ hD, pack?_self]

end Magnitude

namespace Binary64

theorem round_eq_self (negative : Bool) {num den : Nat} (hden : 0 < den) {shift : ℤ}
    {m : Magnitude}
    (hvalue : (num / den : ℚ) * 2 ^ shift = m.significand * 2 ^ m.exponent) :
    round negative num den shift = finite negative m := by
  rw [round, Magnitude.round?_eq_self hden hvalue]

/-- A finite number other than zero, over itself. -/
theorem div_self_eq_one {x : Binary64} (hfinite : x.isFinite = true) (hzero : x.isZero = false) :
    x / x = one := by
  cases x with
  | nan => exact nomatch hfinite
  | infinite s => exact nomatch hfinite
  | finite s m =>
      have hm : 0 < m.significand := significand_pos hzero
      have hmQ : (m.significand : ℚ) ≠ 0 := by exact_mod_cast hm.ne'
      have hone : (2 : ℚ) ^ (1074 : ℤ) = (0x10000000000000 : ℕ) * 2 ^ 1022 := by
        have hsignificand : ((0x10000000000000 : ℕ) : ℚ) = 2 ^ 52 := by norm_num
        rw [hsignificand, ← pow_add]
        rfl
      rw [div_finite s s hzero, bne_self_eq_false]
      apply round_eq_self _ hm
      rw [div_self hmQ, sub_self, zero_add, one_mul]
      exact hone

/-- One times a finite number. -/
theorem one_mul_eq_self {x : Binary64} (hfinite : x.isFinite = true) : one * x = x := by
  cases x with
  | nan => exact nomatch hfinite
  | infinite s => exact nomatch hfinite
  | finite s m =>
      change round (false != s) (0x10000000000000 * m.significand) 1
        ((1022 + m.exponent : ℕ) - 1074) = finite s m
      rw [Bool.false_bne]
      apply round_eq_self _ Nat.one_pos
      have hone : ((0x10000000000000 : ℕ) : ℚ) = 2 ^ (52 : ℤ) := by norm_num
      rw [Nat.cast_mul, Nat.cast_one, div_one, hone, mul_comm, ← mul_assoc,
        ← zpow_add₀ two_ne_zero, mul_comm, ← zpow_natCast]
      congr 2
      push_cast
      ring

theorem round_not (negative : Bool) (num den : Nat) (shift : ℤ) :
    round (!negative) num den shift = (round negative num den shift).neg := by
  rw [round, round]
  cases Magnitude.round? num den shift <;> rfl

/-- The sign of a factor is the sign of the product. -/
protected theorem neg_mul (x y : Binary64) : x.neg * y = (x * y).neg := by
  cases x with
  | nan => rfl
  | infinite s =>
      cases y with
      | nan => rfl
      | infinite t => cases s <;> cases t <;> rfl
      | finite t b =>
          change (if b.isZero then nan else infinite ((!s) != t)) =
            (if b.isZero then nan else infinite (s != t)).neg
          cases b.isZero <;> cases s <;> cases t <;> rfl
  | finite s a =>
      cases y with
      | nan => rfl
      | infinite t =>
          change (if a.isZero then nan else infinite ((!s) != t)) =
            (if a.isZero then nan else infinite (s != t)).neg
          cases a.isZero <;> cases s <;> cases t <;> rfl
      | finite t b =>
          change round ((!s) != t) _ 1 _ = (round (s != t) _ 1 _).neg
          rw [← round_not, Bool.not_bne]

/-- One is neutral for every number, finite or not. -/
protected theorem one_mul (x : Binary64) : one * x = x := by
  cases x with
  | nan => rfl
  | infinite s => cases s <;> rfl
  | finite s m => exact one_mul_eq_self rfl

protected theorem mul_comm (x y : Binary64) : x * y = y * x := by
  have hsign (s t : Bool) : (s != t) = (t != s) := bne_comm
  cases x with
  | nan => cases y <;> rfl
  | infinite s =>
      cases y with
      | nan => rfl
      | infinite t => exact congrArg infinite (hsign s t)
      | finite t b =>
          change (if b.isZero then nan else infinite (s != t)) =
            (if b.isZero then nan else infinite (t != s))
          rw [hsign]
  | finite s a =>
      cases y with
      | nan => rfl
      | infinite t =>
          change (if a.isZero then nan else infinite (s != t)) =
            (if a.isZero then nan else infinite (t != s))
          rw [hsign]
      | finite t b =>
          change round (s != t) (a.significand * b.significand) 1
              ((a.exponent + b.exponent : ℕ) - 1074) =
            round (t != s) (b.significand * a.significand) 1 ((b.exponent + a.exponent : ℕ) - 1074)
          rw [hsign, Nat.mul_comm, Nat.add_comm]

/-- A finite number minus itself is zero, the positive one. -/
theorem sub_self_eq_zero {x : Binary64} (hfinite : x.isFinite = true) : x - x = zero := by
  cases x with
  | nan => exact nomatch hfinite
  | infinite s => exact nomatch hfinite
  | finite s a =>
      have hsum : alignedSum s a (!s) a = 0 := by
        cases s <;> simp [alignedSum]
      change addFinite s a (!s) a = zero
      rw [addFinite, if_pos hsum, Bool.and_not_self]
      rfl

/-! ## Zeros -/

theorem isNaN_of_isFinite {x : Binary64} (h : x.isFinite = true) : x.isNaN = false := by
  cases x with
  | nan => exact nomatch h
  | infinite s => rfl
  | finite s m => rfl

theorem isFinite_of_isZero {x : Binary64} (h : x.isZero = true) : x.isFinite = true := by
  obtain ⟨s, rfl⟩ := (isZero_iff x).mp h
  rfl

/-- Zero over a number other than zero. -/
theorem isZero_div {x w : Binary64} (hx : x.isZero = true) (hnumber : w.isNaN = false)
    (hzero : w.isZero = false) : (x / w).isZero = true := by
  obtain ⟨s, rfl⟩ := (isZero_iff x).mp hx
  cases w with
  | nan => exact nomatch hnumber
  | infinite t => rfl
  | finite t b =>
      rw [div_finite s t hzero]
      rfl

theorem isZero_mul_of_left {x y : Binary64} (hx : x.isZero = true) (hy : y.isFinite = true) :
    (x * y).isZero = true := by
  obtain ⟨s, rfl⟩ := (isZero_iff x).mp hx
  cases y with
  | nan => exact nomatch hy
  | infinite t => exact nomatch hy
  | finite t b =>
      change (round (s != t) (0 * b.significand) 1 _).isZero = true
      rw [Nat.zero_mul]
      rfl

theorem isZero_mul_of_right {x y : Binary64} (hx : x.isFinite = true) (hy : y.isZero = true) :
    (x * y).isZero = true := by
  obtain ⟨t, rfl⟩ := (isZero_iff y).mp hy
  cases x with
  | nan => exact nomatch hx
  | infinite s => exact nomatch hx
  | finite s a => rfl

/-- A finite product has finite factors. -/
theorem isFinite_of_mul {x y : Binary64} (h : (x * y).isFinite = true) :
    x.isFinite = true ∧ y.isFinite = true := by
  cases x with
  | nan => exact nomatch h
  | infinite s =>
      cases y with
      | nan => exact nomatch h
      | infinite t => exact nomatch h
      | finite t b =>
          change (if b.isZero then nan else infinite (s != t)).isFinite = true at h
          split at h <;> exact nomatch h
  | finite s a =>
      cases y with
      | nan => exact nomatch h
      | infinite t =>
          change (if a.isZero then nan else infinite (s != t)).isFinite = true at h
          split at h <;> exact nomatch h
      | finite t b => exact ⟨rfl, rfl⟩

/-! ## Equal numbers -/

/-- The same number, up to the sign of a zero. -/
def SameNumber (x y : Binary64) : Prop := x = y ∨ x.isZero = true ∧ y.isZero = true

namespace SameNumber

variable {x y z : Binary64}

theorem refl (x : Binary64) : SameNumber x x := .inl rfl

theorem symm (h : SameNumber x y) : SameNumber y x := h.imp Eq.symm And.symm

theorem isZero_right (h : SameNumber x y) (hx : x.isZero = true) : y.isZero = true := by
  rcases h with rfl | ⟨_, hy⟩
  · exact hx
  · exact hy

theorem isZero_eq (h : SameNumber x y) : x.isZero = y.isZero :=
  Bool.eq_iff_iff.mpr ⟨h.isZero_right, h.symm.isZero_right⟩

theorem trans (hxy : SameNumber x y) (hyz : SameNumber y z) : SameNumber x z := by
  rcases hxy with rfl | ⟨hx, hy⟩
  · exact hyz
  · exact .inr ⟨hx, hyz.isZero_right hy⟩

end SameNumber

/-- The magnitude without the sign is a place counted from zero. -/
theorem natAbs_signedRank (x : Binary64) : x.signedRank.natAbs = x.rank := by
  rw [signedRank]
  split <;> omega

theorem isZero_of_rank_eq_zero {x : Binary64} (h : x.rank = 0) : x.isZero = true := by
  cases x with
  | nan => exact absurd h (by rw [rank]; decide)
  | infinite s => exact absurd h (by rw [rank]; decide)
  | finite s m => exact (rank_eq_zero_iff s m).mp h

theorem eq_of_abs_eq {x y : Binary64} (habs : x.abs = y.abs)
    (hsign : x.isNegative = y.isNegative) : x = y := by
  cases x <;> cases y <;> simp_all [abs, isNegative]

/-- **Numbers that compare equal** differ in the sign of a zero at most. -/
theorem sameNumber_of_eq {x y : Binary64} (h : x.eq y = true) : SameNumber x y := by
  simp only [eq, Bool.and_eq_true, Bool.not_eq_true'] at h
  obtain ⟨⟨⟨hx, hy⟩, hxy⟩, hyx⟩ := h
  have hge : ¬ x.signedRank < y.signedRank := fun hlt =>
    Bool.false_ne_true (hxy.symm.trans ((lt_iff x y).mpr ⟨hx, hy, hlt⟩))
  have hle : ¬ y.signedRank < x.signedRank := fun hlt =>
    Bool.false_ne_true (hyx.symm.trans ((lt_iff y x).mpr ⟨hy, hx, hlt⟩))
  have hplace : x.signedRank = y.signedRank := by omega
  have hrank : x.rank = y.rank := by
    rw [← natAbs_signedRank, hplace, natAbs_signedRank]
  by_cases hsign : x.isNegative = y.isNegative
  · exact .inl (eq_of_abs_eq (abs_eq_of_rank_eq hrank) hsign)
  · -- with opposite signs they are both in the place of zero
    have hzero : x.rank = 0 := by
      rw [signedRank, signedRank, hrank] at hplace
      cases hx' : x.isNegative <;> cases hy' : y.isNegative <;> simp_all
    exact .inr ⟨isZero_of_rank_eq_zero hzero, isZero_of_rank_eq_zero (hrank ▸ hzero)⟩

/-- The sign of a zero term does not change an exact sum. -/
theorem alignedSum_zero_left (s s' t : Bool) (b : Magnitude) :
    alignedSum s .zero t b = alignedSum s' .zero t b := by
  cases s <;> cases s' <;> simp [alignedSum, Magnitude.zero]

theorem alignedSum_zero_right (s : Bool) (a : Magnitude) (t t' : Bool) :
    alignedSum s a t .zero = alignedSum s a t' .zero := by
  cases t <;> cases t' <;> simp [alignedSum, Magnitude.zero]

theorem addFinite_sameNumber {s s' t t' : Bool} {a b : Magnitude}
    (h : alignedSum s a t b = alignedSum s' a t' b) :
    SameNumber (addFinite s a t b) (addFinite s' a t' b) := by
  rw [addFinite, addFinite, h]
  split
  · exact .inr ⟨rfl, rfl⟩
  · exact .refl _

namespace SameNumber

variable {x y x' y' : Binary64}

theorem div (h : SameNumber x y) (w : Binary64) : SameNumber (x / w) (y / w) := by
  rcases h with rfl | ⟨hx, hy⟩
  · exact .refl _
  obtain ⟨s, rfl⟩ := (isZero_iff x).mp hx
  obtain ⟨t, rfl⟩ := (isZero_iff y).mp hy
  by_cases hw : w.isNaN = false ∧ w.isZero = false
  · exact .inr ⟨isZero_div hx hw.1 hw.2, isZero_div hy hw.1 hw.2⟩
  · -- both quotients are not a number
    left
    cases w with
    | nan => rfl
    | infinite u => exact absurd ⟨rfl, rfl⟩ hw
    | finite u b =>
        have hb : b = .zero := by
          rw [← b.isZero_iff]
          by_contra hb
          exact hw ⟨rfl, Bool.eq_false_iff.mpr hb⟩
        rw [hb]
        rfl

theorem mul (h : SameNumber x y) (w : Binary64) : SameNumber (x * w) (y * w) := by
  rcases h with rfl | ⟨hx, hy⟩
  · exact .refl _
  obtain ⟨s, rfl⟩ := (isZero_iff x).mp hx
  obtain ⟨t, rfl⟩ := (isZero_iff y).mp hy
  cases w with
  | nan => exact .refl nan
  | infinite u => exact .refl nan
  | finite u b => exact .inr ⟨isZero_mul_of_left hx rfl, isZero_mul_of_left hy rfl⟩

theorem add (hx : SameNumber x x') (hy : SameNumber y y') : SameNumber (x + y) (x' + y') := by
  have hleft : SameNumber (x + y) (x' + y) := by
    rcases hx with rfl | ⟨hx, hx'⟩
    · exact .refl _
    obtain ⟨s, rfl⟩ := (isZero_iff x).mp hx
    obtain ⟨s', rfl⟩ := (isZero_iff x').mp hx'
    cases y with
    | nan => exact .refl nan
    | infinite t => exact .refl _
    | finite t b => exact addFinite_sameNumber (alignedSum_zero_left s s' t b)
  have hright : SameNumber (x' + y) (x' + y') := by
    rcases hy with rfl | ⟨hy, hy'⟩
    · exact .refl _
    obtain ⟨t, rfl⟩ := (isZero_iff y).mp hy
    obtain ⟨t', rfl⟩ := (isZero_iff y').mp hy'
    cases x' with
    | nan => exact .refl nan
    | infinite s => exact .refl _
    | finite s a => exact addFinite_sameNumber (alignedSum_zero_right s a t t')
  exact hleft.trans hright

theorem neg (h : SameNumber x y) : SameNumber x.neg y.neg := by
  rcases h with rfl | ⟨hx, hy⟩
  · exact .refl _
  · obtain ⟨s, rfl⟩ := (isZero_iff x).mp hx
    obtain ⟨t, rfl⟩ := (isZero_iff y).mp hy
    exact .inr ⟨rfl, rfl⟩

theorem sub (hx : SameNumber x x') (hy : SameNumber y y') : SameNumber (x - y) (x' - y') :=
  hx.add hy.neg

/-- **Equal finite numbers cancel.** -/
theorem isZero_sub (h : SameNumber x y) (hx : x.isFinite = true) : (x - y).isZero = true := by
  have hself : (x - x).isZero = true := by
    rw [sub_self_eq_zero hx]
    rfl
  exact ((SameNumber.refl x).sub h).isZero_right hself

end SameNumber

/-- The same number compares equal to itself, whichever sign its zero has. -/
theorem SameNumber.eq_of_isNaN {x y : Binary64} (h : SameNumber x y) (hx : x.isNaN = false) :
    x.eq y = true := by
  rcases h with rfl | ⟨hx, hy⟩
  · have hirrefl : x.lt x = false :=
      Bool.eq_false_iff.mpr fun hlt => lt_irrefl _ ((lt_iff x x).mp hlt).2.2
    simp [eq, hx, hirrefl]
  · obtain ⟨s, rfl⟩ := (isZero_iff x).mp hx
    obtain ⟨t, rfl⟩ := (isZero_iff y).mp hy
    cases s <;> cases t <;> rfl

theorem isZero_sub {x y : Binary64} (hx : x.isZero = true) (hy : y.isZero = true) :
    (x - y).isZero = true :=
  SameNumber.isZero_sub (.inr ⟨hx, hy⟩) (isFinite_of_isZero hx)

end Binary64

end RowReduction
