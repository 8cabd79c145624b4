import RowReduction.Binary64.Conversion
import RowReduction.Proofs.Binary64.Bounds

/-!
Rounding to nearest. A value is moved by half a unit in the last place at most, so no magnitude is
closer to it than the one that it is rounded to, and between two that are equally close the one with
the even significand is taken.
-/
namespace RowReduction

/-- Rounding a quotient to an integer changes its numerator by half of the denominator at most, and
by all of that half only to arrive at an even integer. -/
theorem roundHalfEven_half (num : Nat) {den : Nat} (hden : 0 < den) :
    2 * (roundHalfEven num den * den - num : ℤ).natAbs ≤ den ∧
      (2 * (roundHalfEven num den * den - num : ℤ).natAbs = den →
        Even (roundHalfEven num den)) := by
  have hnum := Nat.div_add_mod' num den
  have hmod := Nat.mod_lt num hden
  rw [Nat.even_iff]
  simp only [roundHalfEven]
  generalize num / den = quotient at hnum ⊢
  generalize num % den = rest at hnum hmod ⊢
  have hbelow : ((quotient : ℤ) * den - num).natAbs = rest := by
    rw [← hnum]
    push_cast
    omega
  have habove : (((quotient + 1 : ℕ) : ℤ) * den - num).natAbs = den - rest := by
    have hnext : ((quotient + 1 : ℕ) : ℤ) * den = quotient * den + den := by
      push_cast
      ring
    rw [hnext, ← hnum]
    push_cast
    omega
  split
  · rw [hbelow]
    omega
  · split
    · rw [habove]
      omega
    · -- exactly halfway, the even one of both neighbours is taken
      rcases Nat.mod_two_eq_zero_or_one quotient with heven | hodd
      · rw [heven, Nat.add_zero, hbelow]
        omega
      · rw [hodd, habove]
        omega

/-- Rounding to an integer moves a quotient by one half at most. -/
theorem roundHalfEven_error (num : Nat) {den : Nat} (hden : 0 < den) :
    |(roundHalfEven num den : ℚ) - num / den| ≤ 1 / 2 ∧
      (|(roundHalfEven num den : ℚ) - num / den| = 1 / 2 → Even (roundHalfEven num den)) := by
  obtain ⟨hle, heven⟩ := roundHalfEven_half num hden
  have hdenQ : (0 : ℚ) < den := by exact_mod_cast hden
  have hdistance : |(roundHalfEven num den : ℚ) - num / den| =
      ((roundHalfEven num den * den - num : ℤ).natAbs : ℚ) / den := by
    rw [sub_div' hdenQ.ne', abs_div, abs_of_pos hdenQ, Nat.cast_natAbs]
    push_cast
    rfl
  generalize (roundHalfEven num den * den - num : ℤ).natAbs = distance at hle heven hdistance
  rw [hdistance, div_le_div_iff₀ hdenQ two_pos, div_eq_div_iff hdenQ.ne' two_ne_zero]
  constructor
  · rw [one_mul, mul_comm]
    exact_mod_cast hle
  · intro htie
    rw [one_mul, mul_comm] at htie
    exact heven (by exact_mod_cast htie)

namespace Magnitude

/-- A magnitude `m` that a value may be rounded to: in units of `2 ^ exponent`, which are no larger
than 53 bits require, both differ by one half at most, and by one half only if `m` is even. -/
structure RoundedIn (exponent : Nat) (value : ℚ) (m : Magnitude) : Prop where
  needed : exponent = 0 ∨ 2 ^ 52 * 2 ^ exponent ≤ value
  dvd : 2 ^ exponent ∣ m.units
  error : |(m.units : ℚ) - value| ≤ 2 ^ exponent / 2
  even : |(m.units : ℚ) - value| = 2 ^ exponent / 2 → Even m.significand

theorem even_of_pack? {significand exponent : Nat} {m : Magnitude}
    (h : pack? significand exponent = some m) (heven : Even significand) : Even m.significand := by
  simp only [pack?] at h
  split at h
  · cases h
    exact heven
  · split at h
    · cases h
      exact ⟨0x8000000000000, rfl⟩
    · cases h

/-- **A value is rounded by half a unit in the last place at most.** -/
theorem exists_roundedIn {num den : Nat} (hden : 0 < den) {shift : ℤ} {m : Magnitude}
    (h : round? num den shift = some m) :
    ∃ exponent, RoundedIn exponent ((num / den : ℚ) * 2 ^ shift) m := by
  rcases Nat.eq_zero_or_pos num with rfl | hnum
  · cases h
    have hvalue : ((0 : ℕ) / den : ℚ) * 2 ^ shift = 0 := by simp
    have hunits : zero.units = 0 := rfl
    rw [hvalue]
    refine ⟨0, .inl rfl, one_dvd _, ?_, fun _ => Even.zero⟩
    rw [hunits, Nat.cast_zero, sub_zero, abs_zero]
    positivity
  obtain ⟨_, hneeded⟩ := unitExponent_spec hnum hden shift
  have hscale := scaled_quotient num den (unitExponent num den shift) shift
  rw [round?, if_neg hnum.ne'] at h
  dsimp only at h
  generalize unitExponent num den shift = exponent at h hscale hneeded
  have hD : 0 < den <<< ((exponent : ℤ) - shift).toNat := by
    rw [Nat.shiftLeft_eq]
    positivity
  generalize num <<< (shift - exponent).toNat = N at h hscale
  generalize den <<< ((exponent : ℤ) - shift).toNat = D at h hscale hD
  obtain ⟨herror, heven⟩ := roundHalfEven_error N hD
  have hunit : (0 : ℚ) < 2 ^ exponent := by positivity
  have hunits := units_of_pack? h
  -- the distance in units in the last place
  have hdistance : |(m.units : ℚ) - (num / den : ℚ) * 2 ^ shift| =
      |(roundHalfEven N D : ℚ) - N / D| * 2 ^ exponent := by
    rw [← hscale, hunits, Nat.cast_mul, Nat.cast_pow, Nat.cast_two, ← sub_mul, abs_mul,
      abs_of_pos hunit]
  refine ⟨exponent, hneeded, ?_, ?_, ?_⟩
  · rw [hunits]
    exact Nat.dvd_mul_left _ _
  · rw [hdistance]
    calc |(roundHalfEven N D : ℚ) - N / D| * 2 ^ exponent ≤ 1 / 2 * 2 ^ exponent := by gcongr
      _ = 2 ^ exponent / 2 := by ring
  · intro htie
    have hhalf : |(roundHalfEven N D : ℚ) - N / D| * 2 ^ exponent = 1 / 2 * 2 ^ exponent := by
      rw [← hdistance, htie]
      ring
    exact even_of_pack? h (heven (mul_right_cancel₀ hunit.ne' hhalf))

namespace RoundedIn

variable {exponent : Nat} {value : ℚ} {m : Magnitude}

/-- Other multiples of the unit in the last place are half of it away at least. -/
theorem closest_of_dvd (h : RoundedIn exponent value m) {u : Nat} (hdvd : 2 ^ exponent ∣ u) :
    |(m.units : ℚ) - value| ≤ |(u : ℚ) - value| ∧
      (|(u : ℚ) - value| = |(m.units : ℚ) - value| → u = m.units ∨ Even m.significand) := by
  rcases eq_or_ne u m.units with rfl | hne
  · exact ⟨le_rfl, fun _ => .inl rfl⟩
  have hapart : (2 : ℚ) ^ exponent ≤ |(u : ℚ) - m.units| := by
    have hdifference : (2 ^ exponent : ℤ) ∣ (u : ℤ) - m.units :=
      dvd_sub (by exact_mod_cast hdvd) (by exact_mod_cast h.dvd)
    have hzero : (u : ℤ) - m.units ≠ 0 := by
      rw [sub_ne_zero]
      exact_mod_cast hne
    have hle := Int.le_of_dvd (abs_pos.mpr hzero) ((dvd_abs _ _).mpr hdifference)
    exact_mod_cast hle
  have htriangle := abs_sub_le (u : ℚ) value m.units
  rw [abs_sub_comm value] at htriangle
  have herror := h.error
  refine ⟨by linarith, fun htie => .inr (h.even ?_)⟩
  linarith

/-- Magnitudes that are no multiples of the unit in the last place lie below every value that needs
this unit. -/
theorem units_lt_of_not_dvd {w : Magnitude} (hdvd : ¬ 2 ^ exponent ∣ w.units) :
    w.units < 2 ^ 52 * 2 ^ exponent := by
  have hexponent : w.exponent < exponent := by
    by_contra hle
    apply hdvd
    rw [w.units_eq]
    exact Dvd.dvd.mul_left (pow_dvd_pow 2 (Nat.not_lt.mp hle)) _
  calc w.units = w.significand * 2 ^ w.exponent := w.units_eq
    _ < 2 ^ 53 * 2 ^ w.exponent := Nat.mul_lt_mul_of_pos_right w.significand_lt (by positivity)
    _ = 2 ^ 52 * 2 ^ (w.exponent + 1) := by ring
    _ ≤ 2 ^ 52 * 2 ^ exponent :=
        Nat.mul_le_mul_left _ (Nat.pow_le_pow_right Nat.two_pos hexponent)

/-- **No magnitude is closer**, and none with other units is as close unless the significand is
even. -/
theorem closest (h : RoundedIn exponent value m) (w : Magnitude) :
    |(m.units : ℚ) - value| ≤ |(w.units : ℚ) - value| ∧
      (|(w.units : ℚ) - value| = |(m.units : ℚ) - value| →
        w.units = m.units ∨ Even m.significand) := by
  by_cases hdvd : 2 ^ exponent ∣ w.units
  · exact h.closest_of_dvd hdvd
  -- between such a magnitude and the value lies a power of two, which is not as close either
  have hexponent : exponent ≠ 0 := by
    rintro rfl
    exact hdvd (one_dvd _)
  have hvalue := h.needed.resolve_left hexponent
  have hbelow : (w.units : ℚ) < 2 ^ 52 * 2 ^ exponent := by
    exact_mod_cast units_lt_of_not_dvd hdvd
  obtain ⟨hpower, _⟩ := h.closest_of_dvd (Nat.dvd_mul_left (2 ^ exponent) (2 ^ 52))
  rw [Nat.cast_mul, Nat.cast_pow, Nat.cast_pow, Nat.cast_two,
    abs_of_nonpos (sub_nonpos.mpr hvalue)] at hpower
  have hfar : |(m.units : ℚ) - value| < |(w.units : ℚ) - value| := by
    rw [abs_of_nonpos (a := (w.units : ℚ) - value) (by linarith)]
    linarith
  exact ⟨hfar.le, fun htie => absurd htie hfar.ne'⟩

end RoundedIn

/-- **Rounding gives the closest magnitude.** -/
theorem closest_of_round? {num den : Nat} (hden : 0 < den) {shift : ℤ} {value : ℚ}
    (hvalue : value * 2 ^ 1074 = (num / den : ℚ) * 2 ^ shift) {m : Magnitude}
    (h : round? num den shift = some m) (w : Magnitude) :
    |m.units / 2 ^ 1074 - value| ≤ |w.units / 2 ^ 1074 - value| ∧
      (|w.units / 2 ^ 1074 - value| = |m.units / 2 ^ 1074 - value| →
        w.units = m.units ∨ Even m.significand) := by
  obtain ⟨exponent, hrounded⟩ := exists_roundedIn hden h
  rw [← hvalue] at hrounded
  have hunit : (0 : ℚ) < 2 ^ 1074 := by positivity
  have hscale (w : Magnitude) :
      |(w.units : ℚ) - value * 2 ^ 1074| = |w.units / 2 ^ 1074 - value| * 2 ^ 1074 :=
    calc |(w.units : ℚ) - value * 2 ^ 1074| = |(w.units / 2 ^ 1074 - value) * 2 ^ 1074| := by
          rw [sub_mul, div_mul_cancel₀ _ hunit.ne']
      _ = |w.units / 2 ^ 1074 - value| * 2 ^ 1074 := by rw [abs_mul, abs_of_pos hunit]
  obtain ⟨hclosest, heven⟩ := hrounded.closest w
  rw [hscale, hscale] at hclosest heven
  exact ⟨le_of_mul_le_mul_right hclosest hunit, fun htie => heven (by rw [htie])⟩

end Magnitude

namespace Binary64

/-- The rational number that a finite number is. -/
def toRat (x : Binary64) : ℚ := x.units / 2 ^ 1074

/-- Whether the last bit of the significand is zero. -/
def IsEven : Binary64 → Prop
  | finite _ m => Even m.significand
  | _ => False

/-- A finite number is rounded from a rational number to nearest: the sign is kept, no finite number
is closer, and if one of another value is as close, then the significand is even. -/
structure IsNearest (q : ℚ) (x : Binary64) : Prop where
  isFinite : x.isFinite = true
  isNegative : x.isNegative = decide (q < 0)
  closest : ∀ y : Binary64, y.isFinite = true → |x.toRat - q| ≤ |y.toRat - q|
  even : ∀ y : Binary64, y.isFinite = true → |y.toRat - q| = |x.toRat - q| →
    y.toRat ≠ x.toRat → x.IsEven

theorem toRat_finite (s : Bool) (m : Magnitude) :
    (finite s m).toRat = if s then -(m.units / 2 ^ 1074 : ℚ) else m.units / 2 ^ 1074 := by
  cases s with
  | false => rfl
  | true =>
      have hunits : (finite true m).units = -(m.units : ℤ) := rfl
      rw [toRat, hunits, Int.cast_neg, neg_div, if_pos rfl, Int.cast_natCast]

theorem abs_toRat_finite (s : Bool) (m : Magnitude) :
    |(finite s m).toRat| = m.units / 2 ^ 1074 := by
  have hnonneg : (0 : ℚ) ≤ m.units / 2 ^ 1074 := by positivity
  rw [toRat_finite]
  cases s with
  | false => exact abs_of_nonneg hnonneg
  | true => exact (abs_of_nonpos (neg_nonpos.mpr hnonneg)).trans (neg_involutive _)

/-- Numbers of the same sign are apart as their magnitudes are. -/
theorem abs_toRat_sub (q : ℚ) (m : Magnitude) :
    |(finite (decide (q < 0)) m).toRat - q| = |m.units / 2 ^ 1074 - (|q|)| := by
  rw [toRat_finite]
  rcases lt_or_ge q 0 with hneg | hpos
  · rw [if_pos (decide_eq_true hneg), abs_of_neg hneg, abs_sub_comm, sub_neg_eq_add,
      sub_neg_eq_add, add_comm]
  · rw [decide_eq_false hpos.not_gt, if_neg Bool.false_ne_true, abs_of_nonneg hpos]

/-- Of two numbers of one magnitude that are equally close to a third one, the second is the first,
or the third is zero. -/
theorem eq_zero_of_opposite {x y q : ℚ} (habs : |y| = |x|) (hdistance : |y - q| = |x - q|)
    (hne : y ≠ x) : q = 0 := by
  have hopposite := (abs_eq_abs.mp habs).resolve_left hne
  rcases abs_eq_abs.mp hdistance with h | h
  · exact absurd (sub_left_injective h) hne
  · linarith

/-- **Rounding is to nearest**: what is in range is rounded to a finite number that is nearest to
it. -/
theorem isNearest_round {q : ℚ} {num den : Nat} (hden : 0 < den) {shift : ℤ}
    (hvalue : |q| * 2 ^ 1074 = (num / den : ℚ) * 2 ^ shift)
    (hfinite : (round (decide (q < 0)) num den shift).isFinite = true) :
    IsNearest q (round (decide (q < 0)) num den shift) := by
  rw [round] at hfinite ⊢
  cases hround : Magnitude.round? num den shift with
  | none =>
      rw [hround] at hfinite
      exact absurd hfinite Bool.false_ne_true
  | some m =>
      have hclosest := Magnitude.closest_of_round? hden hvalue hround
      have hself := abs_toRat_sub q m
      have hother (t : Bool) (w : Magnitude) :
          |w.units / 2 ^ 1074 - (|q|)| ≤ |(finite t w).toRat - q| := by
        rw [← abs_toRat_finite t w]
        exact abs_abs_sub_abs_le_abs_sub _ _
      have hleast (y : Binary64) (hy : y.isFinite = true) :
          |(finite (decide (q < 0)) m).toRat - q| ≤ |y.toRat - q| := by
        obtain ⟨t, w, rfl, _⟩ := (atMost_self hy).exists_eq
        rw [hself]
        exact (hclosest w).1.trans (hother t w)
      refine ⟨rfl, rfl, hleast, fun y hy htie hne => ?_⟩
      obtain ⟨t, w, rfl, _⟩ := (atMost_self hy).exists_eq
      have htie' : |w.units / 2 ^ 1074 - (|q|)| = |m.units / 2 ^ 1074 - (|q|)| :=
        le_antisymm ((hother t w).trans_eq (htie.trans hself)) (hclosest w).1
      rcases (hclosest w).2 htie' with hunits | heven
      · -- only zero is as far from a number as from the opposite one, and it has no opposite
        have habs : |(finite t w).toRat| = |(finite (decide (q < 0)) m).toRat| := by
          rw [abs_toRat_finite, abs_toRat_finite, hunits]
        obtain rfl := eq_zero_of_opposite habs htie hne
        have hzero := hleast zero rfl
        have htoRat : zero.toRat = 0 := by
          rw [toRat]
          exact zero_div _
        rw [sub_zero, sub_zero, htoRat, abs_zero, abs_nonpos_iff] at hzero
        rw [hzero, abs_zero, abs_eq_zero] at habs
        exact absurd (habs.trans hzero.symm) hne
      · exact heven

/-- **When an integer is in range**: below halfway between the largest finite number and the next
power of two. -/
theorem isFinite_ofInt_iff (i : ℤ) : (ofInt i).isFinite = true ↔ i.natAbs < overflow := by
  have hbound : ((2 ^ 54 - 1) * 2 ^ 2044 : ℚ) = overflow * 2 ^ (1074 : ℤ) := by
    rw [overflow_cast, mul_assoc]
    congr 1
    rw [← zpow_natCast, ← zpow_natCast, ← zpow_add₀ two_ne_zero]
    rfl
  rw [ofInt, ofRatio, isFinite_round_iff _ _ Nat.one_pos, Nat.cast_one, div_one, hbound,
    mul_lt_mul_iff_left₀ (by positivity), Nat.cast_lt]

/-- An integer in range is rounded to nearest. -/
theorem isNearest_ofInt_of_isFinite {i : ℤ} (hfinite : (ofInt i).isFinite = true) :
    IsNearest i (ofInt i) := by
  have hsign : decide (i < 0) = decide ((i : ℚ) < 0) := by
    rw [decide_eq_decide]
    exact_mod_cast Iff.rfl
  rw [ofInt, ofRatio, hsign] at hfinite ⊢
  apply isNearest_round Nat.one_pos
  · rw [Nat.cast_one, div_one, Nat.cast_natAbs, Int.cast_abs]
    rfl
  · exact hfinite

end Binary64

end RowReduction
