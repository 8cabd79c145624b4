import RowReduction.Proofs.Binary64.Nearest

/-!
Dividing by a pivot and multiplying back. A number that is at most the pivot comes back up to
rounding: what is missing, or is too much, is at most one `2 ^ 52`-th of the pivot, and nothing is
missing exactly when the number that comes back is the same. This is what clearing below a pivot
leaves of an entry.
-/
namespace RowReduction

namespace Magnitude

namespace RoundedIn

variable {exponent : Nat} {value : ℚ} {m : Magnitude}

/-- A value up to a bound is rounded by one `2 ^ 53`-th of the bound at most, or by half a unit. -/
theorem error_le (h : RoundedIn exponent value m) {bound : ℚ} (hvalue : value ≤ bound) :
    |(m.units : ℚ) - value| ≤ 1 / 2 ∨ |(m.units : ℚ) - value| ≤ bound / 2 ^ 53 := by
  have herror := h.error
  rcases h.needed with rfl | hneeded
  · left
    rwa [pow_zero] at herror
  · right
    linarith

/-- What is more than half a unit is not rounded to zero. -/
theorem units_pos (h : RoundedIn exponent value m) (hvalue : 1 / 2 < value) : 0 < m.units := by
  rw [Nat.pos_iff_ne_zero]
  intro hzero
  have herror := h.error
  rw [hzero, Nat.cast_zero, zero_sub, abs_neg, abs_of_pos (by linarith)] at herror
  rcases h.needed with rfl | hneeded
  · rw [pow_zero] at herror
    linarith
  · have hunit : (0 : ℚ) < 2 ^ exponent := by positivity
    linarith

end RoundedIn

/-- Different magnitudes count different units. -/
theorem units_injective : Function.Injective units := by
  intro a b h
  have hself (m : Magnitude) : round? m.units 1 0 = some m := by
    apply round?_eq_self Nat.one_pos
    rw [m.units_eq, Nat.cast_one, div_one, zpow_zero, mul_one]
    push_cast
    rfl
  have hround := hself a
  rw [h, hself b] at hround
  exact (Option.some.inj hround).symm

/-- Magnitudes are ordered by their units. -/
theorem lt_iff_units_lt (a b : Magnitude) : a.lt b = true ↔ a.units < b.units := by
  constructor
  · intro hlt
    have hnot : b.lt a = false := by
      rw [lt_iff] at hlt
      rw [Bool.eq_false_iff, Ne, lt_iff]
      omega
    rcases Nat.lt_or_eq_of_le (units_le_of_not_lt hnot) with h | h
    · exact h
    · rw [units_injective h] at hlt hnot
      exact absurd (hnot.symm.trans hlt) Bool.false_ne_true
  · intro hlt
    by_contra hnot
    have hle := units_le_of_not_lt (Bool.eq_false_iff.mpr hnot)
    omega

theorem units_eq_zero_iff (m : Magnitude) : m.units = 0 ↔ m.isZero = true := by
  have hzero : m.isZero = true ↔ m.significand = 0 := beq_iff_eq
  rw [hzero, m.units_eq, Nat.mul_eq_zero]
  exact or_iff_left (by positivity)

end Magnitude

namespace Magnitude

/-- A quotient of at most one is off by one `2 ^ 53`-th at most. -/
theorem quotient_error {a b m : Magnitude} (hb : b.isZero = false) (hle : a.units ≤ b.units)
    (hm : round? a.significand b.significand ((a.exponent : ℤ) - b.exponent + 1074) = some m) :
    |(m.units * b.units / 2 ^ 1074 : ℚ) - a.units| ≤ b.units / 2 ^ 53 := by
  have hbunits : (0 : ℚ) < b.units := by
    have hne : b.units ≠ 0 := fun h => Bool.false_ne_true (hb.symm.trans (b.units_eq_zero_iff.mp h))
    exact_mod_cast Nat.pos_of_ne_zero hne
  have hunit : (2 : ℚ) ^ 53 ≤ 2 ^ 1074 := pow_le_pow_right₀ one_le_two (by decide)
  obtain ⟨_, hrounded⟩ := exists_roundedIn (Binary64.significand_pos hb) hm
  rw [Binary64.quotient_value] at hrounded
  have hvalue : (a.significand * 2 ^ a.exponent : ℚ) / (b.significand * 2 ^ b.exponent) =
      a.units / b.units := by
    rw [a.units_eq, b.units_eq]
    push_cast
    rfl
  rw [hvalue] at hrounded
  generalize (2 : ℚ) ^ 1074 = one at hrounded hunit ⊢
  have hone : 0 < one := lt_of_lt_of_le (by positivity) hunit
  have hquotient : (a.units / b.units : ℚ) * one ≤ one := by
    refine mul_le_of_le_one_left hone.le ((div_le_one hbunits).mpr ?_)
    exact_mod_cast hle
  have herror : |(m.units : ℚ) - a.units / b.units * one| ≤ one / 2 ^ 53 := by
    rcases hrounded.error_le hquotient with hhalf | hrelative
    · linarith
    · exact hrelative
  have hscale : (m.units * b.units / one : ℚ) - a.units =
      (m.units - a.units / b.units * one) * (b.units / one) := by
    field_simp
  calc |(m.units * b.units / one : ℚ) - a.units|
      = |(m.units : ℚ) - a.units / b.units * one| * (b.units / one) := by
        rw [hscale, abs_mul, abs_of_pos (div_pos hbunits hone)]
    _ ≤ one / 2 ^ 53 * (b.units / one) := by gcongr
    _ = b.units / 2 ^ 53 := by field_simp

/-- Multiplied back it is off by one `2 ^ 52`-th at most, in whole units. -/
theorem multiplied_back_error {a b m w : Magnitude} (hb : b.isZero = false)
    (hle : a.units ≤ b.units) (hone : m.units ≤ 2 ^ 1074)
    (hm : round? a.significand b.significand ((a.exponent : ℤ) - b.exponent + 1074) = some m)
    (hw : round? (m.significand * b.significand) 1 (((m.exponent + b.exponent : ℕ) : ℤ) - 1074) =
      some w) :
    ((a.units : ℤ) - w.units).natAbs ≤ b.units / 2 ^ 52 := by
  have hquotient := quotient_error hb hle hm
  obtain ⟨_, hrounded⟩ := exists_roundedIn Nat.one_pos hw
  rw [Binary64.product_value, Nat.cast_mul] at hrounded
  have hproduct : (m.units * b.units / 2 ^ 1074 : ℚ) ≤ b.units := by
    have hcast : (m.units : ℚ) ≤ 2 ^ 1074 := by exact_mod_cast hone
    rw [div_le_iff₀ (by positivity), mul_comm]
    exact mul_le_mul_of_nonneg_left hcast (Nat.cast_nonneg _)
  generalize (m.units * b.units / 2 ^ 1074 : ℚ) = product at hquotient hrounded hproduct
  have htriangle := abs_sub_le (w.units : ℚ) product a.units
  have hdistance : (((a.units : ℤ) - w.units).natAbs : ℚ) = |(w.units : ℚ) - a.units| := by
    rw [Nat.cast_natAbs, abs_sub_comm]
    push_cast
    rfl
  rw [← hdistance] at htriangle
  rw [Nat.le_div_iff_mul_le (by positivity)]
  generalize ((a.units : ℤ) - w.units).natAbs = distance at htriangle ⊢
  rcases hrounded.error_le hproduct with hhalf | hrelative
  · -- the half unit matters only for a distance of one unit or more
    have hbound : distance * 2 ^ 53 ≤ b.units + 2 ^ 52 := by
      have hcast : (distance : ℚ) * 2 ^ 53 ≤ b.units + 2 ^ 52 := by linarith
      exact_mod_cast hcast
    rcases Nat.eq_zero_or_pos distance with rfl | hpos
    · exact (Nat.zero_mul _).trans_le (Nat.zero_le _)
    · have hunit : 2 ^ 52 ≤ distance * 2 ^ 52 := Nat.le_mul_of_pos_left _ hpos
      linarith
  · have hcast : (distance : ℚ) * 2 ^ 52 ≤ b.units := by linarith
    exact_mod_cast hcast

end Magnitude

/-- A magnitude over a power of two is a magnitude, up to the part that is less than a unit. -/
theorem IsMagnitude.div_two_pow {u : Nat} (hu : IsMagnitude u) (k : Nat) :
    IsMagnitude (u / 2 ^ k) := by
  obtain ⟨m, rfl⟩ := hu
  have hsignificand := m.significand_lt
  rw [m.units_eq]
  rcases Nat.lt_or_ge m.exponent k with hlt | hle
  · -- no more than the significand is left
    refine ⟨⟨m.significand / 2 ^ (k - m.exponent), 0,
      (Nat.div_le_self _ _).trans_lt hsignificand, Nat.zero_le _, .inl rfl⟩, ?_⟩
    have hpow : 2 ^ k = 2 ^ (k - m.exponent) * 2 ^ m.exponent := by
      rw [← pow_add, Nat.sub_add_cancel hlt.le]
    rw [Magnitude.units_eq, pow_zero, mul_one, hpow, Nat.mul_div_mul_right _ _ (by positivity)]
  · -- the exponent goes down by `k`
    refine ⟨⟨m.significand, m.exponent - k, hsignificand, (Nat.sub_le _ _).trans m.exponent_le,
      m.normal.imp_left fun hzero => by omega⟩, ?_⟩
    have hpow : 2 ^ m.exponent = 2 ^ (m.exponent - k) * 2 ^ k := by
      rw [← pow_add, Nat.sub_add_cancel hle]
    rw [Magnitude.units_eq, hpow, ← mul_assoc, Nat.mul_div_cancel _ (by positivity)]

namespace Binary64

/-! ## Differences -/

theorem units_neg {x : Binary64} (hx : x.isFinite = true) : x.neg.units = -x.units := by
  obtain ⟨s, a, rfl, _⟩ := (atMost_self hx).exists_eq
  cases s with
  | false => rfl
  | true => exact (Int.neg_neg _).symm

/-- A difference is bounded by what bounds the exact difference. -/
theorem atMost_sub {x y : Binary64} {u : Nat} (hx : x.isFinite = true) (hy : y.isFinite = true)
    (hu : IsMagnitude u) (hdifference : (x.units - y.units).natAbs ≤ u) : (x - y).AtMost u := by
  refine atMost_add hx ((isFinite_neg y).trans hy) hu ?_
  rwa [units_neg hy, ← Int.sub_eq_add_neg]

/-- Finite numbers with equal units are the same number. -/
theorem sameNumber_of_units_eq {x y : Binary64} (hx : x.isFinite = true) (hy : y.isFinite = true)
    (h : x.units = y.units) : x.SameNumber y := by
  obtain ⟨s, a, rfl, _⟩ := (atMost_self hx).exists_eq
  obtain ⟨t, b, rfl, _⟩ := (atMost_self hy).exists_eq
  have hmagnitude : a = b := by
    apply Magnitude.units_injective
    rw [← natAbs_units_eq s a, h, natAbs_units_eq]
  subst hmagnitude
  by_cases hsign : s = t
  · exact .inl (congrArg (finite · a) hsign)
  · -- a number that is equal to its opposite is zero
    have hzero : a.units = 0 := by
      cases s <;> cases t <;> simp_all [units]
    have ha := a.units_eq_zero_iff.mp hzero
    exact .inr ⟨ha, ha⟩

/-- A sum that is not exactly zero is not rounded to zero. -/
theorem units_add_eq_zero {x y : Binary64} (hx : x.isFinite = true) (hy : y.isFinite = true)
    (h : (x + y).isZero = true) : x.units + y.units = 0 := by
  obtain ⟨s, a, rfl, _⟩ := (atMost_self hx).exists_eq
  obtain ⟨t, b, rfl, _⟩ := (atMost_self hy).exists_eq
  change (addFinite s a t b).isZero = true at h
  rw [addFinite] at h
  split at h
  · rename_i hsum
    rw [← alignedSum_mul, hsum, zero_mul]
  · rename_i hsum
    exfalso
    rw [round] at h
    cases hround : Magnitude.round? (alignedSum s a t b).natAbs 1
        (min a.exponent b.exponent : ℕ) with
    | none =>
        rw [hround] at h
        exact absurd h Bool.false_ne_true
    | some m =>
        rw [hround] at h
        obtain ⟨_, hrounded⟩ := Magnitude.exists_roundedIn Nat.one_pos hround
        have hone : (1 : ℚ) ≤ (alignedSum s a t b).natAbs := by
          exact_mod_cast Nat.one_le_iff_ne_zero.mpr (Int.natAbs_ne_zero.mpr hsum)
        have hpow : (1 : ℚ) ≤ 2 ^ ((min a.exponent b.exponent : ℕ) : ℤ) := by
          rw [zpow_natCast]
          exact one_le_pow₀ one_le_two
        have hpos := hrounded.units_pos (by rw [Nat.cast_one, div_one]; nlinarith)
        exact hpos.ne' (m.units_eq_zero_iff.mpr h)

/-- **Only the same number has the difference zero.** -/
theorem isZero_sub_iff {x y : Binary64} (hx : x.isFinite = true) (hy : y.isFinite = true) :
    (x - y).isZero = true ↔ x.SameNumber y := by
  constructor
  · intro h
    have hsum := units_add_eq_zero hx ((isFinite_neg y).trans hy) h
    rw [units_neg hy] at hsum
    exact sameNumber_of_units_eq hx hy (by omega)
  · exact fun h => h.isZero_sub hx

/-! ## Multiplying back -/

/-- **A quotient multiplied back** differs from the dividend by one `2 ^ 52`-th of the divisor at
most, if the dividend is at most the divisor. -/
theorem natAbs_sub_div_mul_le {x p : Binary64} (hx : x.AtMost p.units.natAbs)
    (hp : p.isFinite = true) (hzero : p.isZero = false) :
    (x.units - (x / p * p).units).natAbs ≤ p.units.natAbs / 2 ^ 52 := by
  have hquotient := hx.div hp hzero
  have hproduct := hquotient.mul (atMost_self hp) p.isMagnitude_natAbs_units
  obtain ⟨t, b, rfl, _⟩ := (atMost_self hp).exists_eq
  obtain ⟨s, a, rfl, ha⟩ := hx.exists_eq
  rw [natAbs_units_eq] at ha ⊢
  rw [div_finite s t hzero, round] at hquotient hproduct ⊢
  cases hm : Magnitude.round? a.significand b.significand
      ((a.exponent : ℤ) - b.exponent + 1074) with
  | none =>
      rw [hm] at hquotient
      exact absurd hquotient.isFinite Bool.false_ne_true
  | some m =>
      rw [hm] at hquotient hproduct
      have hone := hquotient.natAbs_units_le
      rw [natAbs_units_eq, natAbs_units_one] at hone
      change (round ((s != t) != t) (m.significand * b.significand) 1
        ((m.exponent + b.exponent : ℕ) - 1074)).AtMost _ at hproduct
      change ((finite s a).units - (round ((s != t) != t) (m.significand * b.significand) 1
        ((m.exponent + b.exponent : ℕ) - 1074)).units).natAbs ≤ _
      have hsign : ((s != t) != t) = s := by cases s <;> cases t <;> rfl
      rw [hsign, round] at hproduct ⊢
      cases hw : Magnitude.round? (m.significand * b.significand) 1
          (((m.exponent + b.exponent : ℕ) : ℤ) - 1074) with
      | none =>
          rw [hw] at hproduct
          exact absurd hproduct.isFinite Bool.false_ne_true
      | some w =>
          have herror := Magnitude.multiplied_back_error hzero ha hone hm hw
          cases s with
          | false => exact herror
          | true =>
              have hneg : (finite true a).units - (finite true w).units =
                  -((a.units : ℤ) - w.units) := by
                simp only [units]
                omega
              rwa [hneg, Int.natAbs_neg]

/-- What clearing below a pivot leaves of an entry: the entry less the quotient multiplied back, or
the entry as it was if the quotient is zero. -/
def remainder (x p : Binary64) : Binary64 := if (x / p).isZero then x else x - x / p * p

section Remainder

variable {x p : Binary64} (hx : x.AtMost p.units.natAbs) (hp : p.isFinite = true)
  (hzero : p.isZero = false)
include hx hp hzero

theorem isFinite_div_mul : (x / p * p).isFinite = true :=
  ((hx.div hp hzero).mul (atMost_self hp) p.isMagnitude_natAbs_units).isFinite

/-- **Nothing remains** exactly when the quotient multiplies back to the entry. -/
theorem isZero_remainder_iff : (remainder x p).isZero = true ↔ (x / p * p).eq x = true := by
  have hback := isFinite_div_mul hx hp hzero
  have heq : (x / p * p).eq x = true ↔ x.SameNumber (x / p * p) :=
    ⟨fun h => (sameNumber_of_eq h).symm, fun h => h.symm.eq_of_isNaN (isNaN_of_isFinite hback)⟩
  rw [heq, remainder]
  split
  · rename_i hfactor
    have hproduct := isZero_mul_of_left hfactor hp
    exact ⟨fun h => .inr ⟨h, hproduct⟩, fun h => h.symm.isZero_right hproduct⟩
  · exact isZero_sub_iff hx.isFinite hback

/-- **What remains is rounding error**: one `2 ^ 52`-th of the pivot at most. -/
theorem remainder_atMost : (remainder x p).AtMost (p.units.natAbs / 2 ^ 52) := by
  have hback := isFinite_div_mul hx hp hzero
  have herror := natAbs_sub_div_mul_le hx hp hzero
  rw [remainder]
  split
  · rename_i hfactor
    obtain ⟨s, hproduct⟩ := (isZero_iff _).mp (isZero_mul_of_left hfactor hp)
    have hunits : (finite s .zero).units = 0 := by cases s <;> rfl
    rw [hproduct, hunits, sub_zero] at herror
    exact ⟨hx.isFinite, herror⟩
  · exact atMost_sub hx.isFinite hback (p.isMagnitude_natAbs_units.div_two_pow 52) herror

end Remainder

end Binary64

end RowReduction
