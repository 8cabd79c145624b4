import RowReduction.Proofs.Binary64.Exactness

/-!
Bounds that rounding respects. A value that is at most a magnitude is rounded to at most that
magnitude. So what bounds the exact result of an operation bounds the rounded one as well,
provided that the bound is itself a magnitude; and whatever is bounded is finite.
-/
namespace RowReduction

/-- A quotient that is at most an integer is rounded to at most that integer. -/
theorem roundHalfEven_le_of_le_mul {num den k : Nat} (hden : 0 < den) (h : num ≤ k * den) :
    roundHalfEven num den ≤ k := by
  rcases Nat.lt_or_eq_of_le h with hlt | rfl
  · exact (roundHalfEven_le num den).trans ((Nat.div_lt_iff_lt_mul hden).mpr hlt)
  · exact (roundHalfEven_mul_self k hden).le

namespace Magnitude

theorem units_eq (m : Magnitude) : m.units = m.significand * 2 ^ m.exponent := Nat.shiftLeft_eq _ _

theorem units_of_pack? {significand exponent : Nat} {m : Magnitude}
    (h : pack? significand exponent = some m) : m.units = significand * 2 ^ exponent := by
  rw [units_eq]
  simp only [pack?] at h
  split at h
  · cases h
    rfl
  · split at h
    · rename_i hcarry
      obtain ⟨rfl, _⟩ := hcarry
      cases h
      ring
    · cases h

/-- Larger magnitudes count more units. -/
theorem units_le_of_not_lt {a b : Magnitude} (h : b.lt a = false) : a.units ≤ b.units := by
  have horder : ¬ (b.exponent < a.exponent ∨
      b.exponent = a.exponent ∧ b.significand < a.significand) :=
    fun hlt => Bool.false_ne_true (h.symm.trans ((lt_iff b a).mpr hlt))
  rw [units_eq, units_eq]
  rcases Nat.lt_or_eq_of_le (Nat.not_lt.mp fun hlt => horder (.inl hlt)) with hlt | heq
  · -- an exponent that is not the smallest one comes with a full significand
    have hnormal : 0x10000000000000 ≤ b.significand := b.normal.resolve_left (Nat.ne_zero_of_lt hlt)
    calc a.significand * 2 ^ a.exponent ≤ 2 ^ 53 * 2 ^ a.exponent :=
          Nat.mul_le_mul_right _ a.significand_lt.le
      _ = 2 ^ 52 * 2 ^ (a.exponent + 1) := by ring
      _ ≤ b.significand * 2 ^ b.exponent :=
          Nat.mul_le_mul hnormal (Nat.pow_le_pow_right Nat.two_pos hlt)
  · rw [heq]
    exact Nat.mul_le_mul_right _ (Nat.not_lt.mp fun hlt => horder (.inr ⟨heq.symm, hlt⟩))

/-- **Rounding respects magnitudes**: a value that is at most one of them is in range, and is
rounded to at most that one. -/
theorem exists_round? {num den : Nat} (hden : 0 < den) {shift : ℤ} {m : Magnitude}
    (hvalue : (num / den : ℚ) * 2 ^ shift ≤ m.units) :
    ∃ r, round? num den shift = some r ∧ r.units ≤ m.units := by
  rcases Nat.eq_zero_or_pos num with rfl | hnum
  · exact ⟨zero, if_pos rfl, Nat.zero_le _⟩
  obtain ⟨_, hneeded⟩ := unitExponent_spec hnum hden shift
  obtain ⟨hbits, hnormal, _⟩ := significand_spec hnum hden shift
  have hscale := scaled_quotient num den (unitExponent num den shift) shift
  rw [units_eq] at hvalue ⊢
  push_cast at hvalue
  have hexponent : unitExponent num den shift ≤ m.exponent := by
    have hlt : (m.significand : ℚ) < 2 ^ 53 := by exact_mod_cast m.significand_lt
    refine exponent_le_of_reached (hvalue.trans_lt ?_) hneeded
    exact mul_lt_mul_of_pos_right hlt (by positivity)
  rw [round?, if_neg hnum.ne']
  dsimp only at hbits hnormal ⊢
  generalize unitExponent num den shift = exponent at hexponent hscale hbits hnormal ⊢
  have hD : 0 < den <<< ((exponent : ℤ) - shift).toNat := by
    rw [Nat.shiftLeft_eq]
    positivity
  generalize num <<< (shift - exponent).toNat = N at hscale hbits hnormal ⊢
  generalize den <<< ((exponent : ℤ) - shift).toNat = D at hscale hbits hnormal hD ⊢
  -- in units in the last place the bound is an integer
  have hunits : m.significand * 2 ^ (m.exponent - exponent) * 2 ^ exponent =
      m.significand * 2 ^ m.exponent := by
    rw [mul_assoc, ← pow_add, Nat.sub_add_cancel hexponent]
  have hN : N ≤ m.significand * 2 ^ (m.exponent - exponent) * D := by
    have hDQ : (0 : ℚ) < D := by exact_mod_cast hD
    have hunit : (0 : ℚ) < 2 ^ exponent := by positivity
    have hquotient : (N : ℚ) / D * 2 ^ exponent ≤
        (m.significand * 2 ^ (m.exponent - exponent) : ℕ) * 2 ^ exponent := by
      rw [hscale]
      refine hvalue.trans_eq ?_
      exact_mod_cast hunits.symm
    rw [mul_le_mul_iff_left₀ hunit, div_le_iff₀ hDQ] at hquotient
    exact_mod_cast hquotient
  have hrounded := roundHalfEven_le_of_le_mul hD hN
  cases hpack : pack? (roundHalfEven N D) exponent with
  | some r =>
      refine ⟨r, rfl, ?_⟩
      rw [units_of_pack? hpack, ← hunits]
      exact Nat.mul_le_mul_right _ hrounded
  | none =>
      -- there is a place for every value up to the bound, which has one itself
      have hlast := m.exponent_le
      have hsignificand := m.significand_lt
      rcases (pack?_eq_none_iff hbits hnormal).mp hpack with hlarge | ⟨rfl, hcarry⟩
      · omega
      · have hexponent : m.exponent - 2045 = 0 := by omega
        rw [hexponent, pow_zero, mul_one] at hrounded
        omega

end Magnitude

/-- A number of units that makes a magnitude. -/
def IsMagnitude (units : Nat) : Prop := ∃ m : Magnitude, m.units = units

namespace IsMagnitude

variable {u v : Nat}

theorem zero : IsMagnitude 0 := ⟨.zero, rfl⟩

theorem max (hu : IsMagnitude u) (hv : IsMagnitude v) : IsMagnitude (u ⊔ v) := by
  rcases le_total u v with h | h
  · rwa [max_eq_right h]
  · rwa [max_eq_left h]

/-- In range, twice a magnitude is a magnitude. -/
theorem double (hu : IsMagnitude u) (hrange : 2 * u < 2 ^ 1024 * 2 ^ 1074) :
    IsMagnitude (2 * u) := by
  obtain ⟨m, rfl⟩ := hu
  have hunits := m.units_eq
  by_cases hfull : 0x10000000000000 ≤ m.significand
  · -- the exponent goes up by one
    have hexponent : m.exponent + 1 ≤ 2045 := by
      have hlow : 2 ^ 52 * 2 ^ m.exponent ≤ m.units :=
        hunits ▸ Nat.mul_le_mul_right _ hfull
      have hpow : 2 ^ (m.exponent + 53) < 2 ^ (1024 + 1074) := by
        calc 2 ^ (m.exponent + 53) = 2 * (2 ^ 52 * 2 ^ m.exponent) := by ring
          _ ≤ 2 * m.units := Nat.mul_le_mul_left 2 hlow
          _ < 2 ^ 1024 * 2 ^ 1074 := hrange
          _ = 2 ^ (1024 + 1074) := (pow_add 2 1024 1074).symm
      have := (Nat.pow_lt_pow_iff_right Nat.one_lt_two).mp hpow
      omega
    refine ⟨⟨m.significand, m.exponent + 1, m.significand_lt, hexponent, .inr hfull⟩, ?_⟩
    rw [Magnitude.units_eq, hunits]
    ring
  · -- the significand has room for one bit more
    have hzero : m.exponent = 0 := m.normal.resolve_right hfull
    refine ⟨⟨2 * m.significand, 0, by omega, Nat.zero_le _, .inl rfl⟩, ?_⟩
    rw [Magnitude.units_eq, hunits, hzero]
    ring

theorem two_pow_mul (hu : IsMagnitude u) {k : Nat} (hrange : 2 ^ k * u < 2 ^ 1024 * 2 ^ 1074) :
    IsMagnitude (2 ^ k * u) := by
  induction k with
  | zero => rwa [pow_zero, one_mul]
  | succ k ih =>
      have htwice : 2 ^ (k + 1) * u = 2 * (2 ^ k * u) := by ring
      rw [htwice] at hrange ⊢
      exact (ih (by omega)).double hrange

end IsMagnitude

namespace Binary64

/-- A finite number of at most `bound` units, whatever its sign. -/
structure AtMost (bound : Nat) (x : Binary64) : Prop where
  isFinite : x.isFinite = true
  natAbs_units_le : x.units.natAbs ≤ bound

theorem atMost_self {x : Binary64} (h : x.isFinite = true) : x.AtMost x.units.natAbs :=
  ⟨h, le_rfl⟩

theorem natAbs_units_eq (s : Bool) (m : Magnitude) : (finite s m).units.natAbs = m.units := by
  rw [natAbs_units_finite, m.units_eq]

theorem isMagnitude_natAbs_units (x : Binary64) : IsMagnitude x.units.natAbs := by
  cases x with
  | nan => exact .zero
  | infinite s => exact .zero
  | finite s m => exact ⟨m, (natAbs_units_eq s m).symm⟩

/-- One counts `2 ^ 1074` units. -/
theorem natAbs_units_one : one.units.natAbs = 2 ^ 1074 := by decide +kernel

/-- **Rounding below a bound**: a value that is at most a magnitude is rounded to a finite number
that is at most that. -/
theorem atMost_round (negative : Bool) {num den : Nat} (hden : 0 < den) {shift : ℤ} {u : Nat}
    (hu : IsMagnitude u) (hvalue : (num / den : ℚ) * 2 ^ shift ≤ u) :
    (round negative num den shift).AtMost u := by
  obtain ⟨m, rfl⟩ := hu
  obtain ⟨r, hr, hle⟩ := Magnitude.exists_round? hden hvalue
  rw [round, hr]
  exact ⟨rfl, (natAbs_units_eq negative r).trans_le hle⟩

/-- Of two numbers the one that does not outrank the other is at most that one. -/
theorem atMost_of_not_outranked {x y : Binary64} (h : outranks x y = false)
    (hy : y.isFinite = true) : x.AtMost y.units.natAbs := by
  have hrank : x.rank ≤ y.rank := Nat.not_lt.mp fun hlt =>
    Bool.false_ne_true (h.symm.trans ((outranks_iff x y).mpr hlt))
  cases y with
  | nan => exact nomatch hy
  | infinite t => exact nomatch hy
  | finite t b =>
      cases x with
      | nan => exact absurd hrank (Nat.not_le.mpr (finite_rank_lt_nan t b))
      | infinite s => exact absurd hrank (Nat.not_le.mpr (finite_rank_lt t b s))
      | finite s a =>
          have hlt : b.lt a = false := Bool.eq_false_iff.mpr fun hlt =>
            Nat.not_lt.mpr hrank ((finite_rank_lt_iff t s b a).mpr hlt)
          refine ⟨rfl, ?_⟩
          rw [natAbs_units_eq, natAbs_units_eq]
          exact Magnitude.units_le_of_not_lt hlt

/-- The value that a product of finite numbers is rounded from, in units. -/
theorem product_value (a b : Magnitude) :
    ((a.significand * b.significand : ℕ) : ℚ) / (1 : ℕ) *
      2 ^ (((a.exponent + b.exponent : ℕ) : ℤ) - 1074) = (a.units * b.units : ℕ) / 2 ^ 1074 := by
  rw [a.units_eq, b.units_eq, zpow_sub₀ two_ne_zero, zpow_natCast, ← mul_div_assoc, Nat.cast_one,
    div_one]
  congr 1
  push_cast
  ring

/-- The exact sum of two magnitudes, in units. -/
theorem alignedSum_mul (s : Bool) (a : Magnitude) (t : Bool) (b : Magnitude) :
    alignedSum s a t b * 2 ^ min a.exponent b.exponent =
      (finite s a).units + (finite t b).units := by
  have hshift (m : Magnitude) {e : Nat} (he : e ≤ m.exponent) :
      ((m.significand <<< (m.exponent - e) : ℕ) : ℤ) * 2 ^ e = m.units := by
    rw [Nat.shiftLeft_eq, m.units_eq]
    push_cast
    rw [mul_assoc, ← pow_add, Nat.sub_add_cancel he]
  have ha := hshift a (min_le_left a.exponent b.exponent)
  have hb := hshift b (min_le_right a.exponent b.exponent)
  simp only [alignedSum, add_mul]
  cases s <;> cases t <;> simp only [units, if_true, if_false, Bool.false_eq_true, neg_mul, ha, hb]

namespace AtMost

variable {x y : Binary64} {u v : Nat}

theorem mono (h : x.AtMost u) (huv : u ≤ v) : x.AtMost v :=
  ⟨h.isFinite, h.natAbs_units_le.trans huv⟩

theorem exists_eq (h : x.AtMost u) : ∃ s m, x = finite s m ∧ m.units ≤ u := by
  obtain ⟨hfinite, hle⟩ := h
  cases x with
  | nan => exact nomatch hfinite
  | infinite s => exact nomatch hfinite
  | finite s m => exact ⟨s, m, rfl, (natAbs_units_eq s m).symm.trans_le hle⟩

theorem neg (h : x.AtMost u) : x.neg.AtMost u := by
  obtain ⟨s, m, rfl, hle⟩ := h.exists_eq
  exact ⟨rfl, (natAbs_units_eq (!s) m).trans_le hle⟩

end AtMost

/-- **A sum is bounded by what bounds the exact sum.** -/
theorem atMost_add {x y : Binary64} {u : Nat} (hx : x.isFinite = true) (hy : y.isFinite = true)
    (hu : IsMagnitude u) (hsum : (x.units + y.units).natAbs ≤ u) : (x + y).AtMost u := by
  obtain ⟨s, a, rfl, _⟩ := (atMost_self hx).exists_eq
  obtain ⟨t, b, rfl, _⟩ := (atMost_self hy).exists_eq
  change (addFinite s a t b).AtMost u
  rw [addFinite]
  split
  · exact ⟨rfl, (natAbs_units_eq _ .zero).trans_le (Nat.zero_le _)⟩
  · apply atMost_round _ Nat.one_pos hu
    have habs := congrArg Int.natAbs (alignedSum_mul s a t b)
    rw [Int.natAbs_mul, Int.natAbs_pow] at habs
    rw [Nat.cast_one, div_one, zpow_natCast]
    exact_mod_cast habs.trans_le hsum

namespace AtMost

variable {x y : Binary64} {u v : Nat}

/-- A sum is at most the sum of the bounds. -/
theorem add (hx : x.AtMost u) (hy : y.AtMost v) (huv : IsMagnitude (u + v)) :
    (x + y).AtMost (u + v) := by
  refine atMost_add hx.isFinite hy.isFinite huv ((Int.natAbs_add_le _ _).trans ?_)
  exact Nat.add_le_add hx.natAbs_units_le hy.natAbs_units_le

/-- So is a difference. -/
theorem sub (hx : x.AtMost u) (hy : y.AtMost v) (huv : IsMagnitude (u + v)) :
    (x - y).AtMost (u + v) :=
  hx.add hy.neg huv

/-- A factor that is at most one does not enlarge a product. -/
theorem mul (hx : x.AtMost one.units.natAbs) (hy : y.AtMost u) (hu : IsMagnitude u) :
    (x * y).AtMost u := by
  rw [natAbs_units_one] at hx
  obtain ⟨s, a, rfl, ha⟩ := hx.exists_eq
  obtain ⟨t, b, rfl, hb⟩ := hy.exists_eq
  change (round (s != t) (a.significand * b.significand) 1
    ((a.exponent + b.exponent : ℕ) - 1074)).AtMost u
  apply atMost_round _ Nat.one_pos hu
  rw [product_value, div_le_iff₀ (by positivity)]
  calc ((a.units * b.units : ℕ) : ℚ) ≤ (u * 2 ^ 1074 : ℕ) := by
        rw [Nat.cast_le, mul_comm]
        exact Nat.mul_le_mul hb ha
    _ = u * 2 ^ 1074 := by rw [Nat.cast_mul, Nat.cast_pow, Nat.cast_two]

/-- A number over one that it is at most is at most one. -/
theorem div (hx : x.AtMost y.units.natAbs) (hy : y.isFinite = true) (hzero : y.isZero = false) :
    (x / y).AtMost one.units.natAbs := by
  obtain ⟨t, b, rfl, _⟩ := (atMost_self hy).exists_eq
  rw [natAbs_units_eq] at hx
  obtain ⟨s, a, rfl, ha⟩ := hx.exists_eq
  have hb : 0 < b.significand := significand_pos hzero
  rw [div_finite s t hzero]
  apply atMost_round _ hb (isMagnitude_natAbs_units one)
  have hone : ((2 ^ 1074 : ℕ) : ℚ) = 1 * 2 ^ 1074 := by rw [one_mul, Nat.cast_pow, Nat.cast_two]
  rw [quotient_value, natAbs_units_one, hone]
  refine mul_le_mul_of_nonneg_right ?_ (by positivity)
  rw [div_le_one (by positivity)]
  rw [a.units_eq, b.units_eq] at ha
  exact_mod_cast ha

end AtMost

end Binary64

end RowReduction
