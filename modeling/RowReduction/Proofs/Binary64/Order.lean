import RowReduction.Proofs.Elimination.Pivot

/-!
The order of magnitudes of binary64 numbers. All magnitudes stand in one row, the finite ones by
exponent and significand, then infinity, then not-a-number; ranking compares places in this row. So
ranking is a weak order, and two numbers of which neither outranks the other have one magnitude.
Numbers are compared by the same places, counted downwards for negative ones.
-/
namespace RowReduction

/-- The exponent decides, and between equal exponents the significand. -/
theorem Magnitude.lt_iff (a b : Magnitude) :
    a.lt b = true ↔
      a.exponent < b.exponent ∨ a.exponent = b.exponent ∧ a.significand < b.significand := by
  simp [lt]

namespace Binary64

/-- The place of a number's magnitude among all magnitudes. -/
def rank : Binary64 → Nat
  | nan => 2047 * 0x20000000000000
  | infinite _ => 2046 * 0x20000000000000
  | finite _ m => m.exponent * 0x20000000000000 + m.significand

/-- Not-a-number comes last, and infinity before it. -/
theorem infinite_rank_lt (s : Bool) : (infinite s).rank < nan.rank := by
  rw [rank, rank]
  decide

/-- Finite magnitudes come before infinity. -/
theorem finite_rank_lt (s : Bool) (m : Magnitude) (t : Bool) :
    (finite s m).rank < (infinite t).rank := by
  have hexponent := m.exponent_le
  have hsignificand := m.significand_lt
  rw [rank, rank]
  omega

theorem finite_rank_lt_nan (s : Bool) (m : Magnitude) : (finite s m).rank < nan.rank :=
  Nat.lt_trans (finite_rank_lt s m s) (infinite_rank_lt s)

theorem finite_rank_lt_iff (s t : Bool) (a b : Magnitude) :
    (finite s a).rank < (finite t b).rank ↔ a.lt b = true := by
  have ha := a.significand_lt
  have hb := b.significand_lt
  rw [rank, rank, Magnitude.lt_iff]
  omega

/-- **Ranking compares places.** -/
theorem outranks_iff (x y : Binary64) : outranks x y = true ↔ y.rank < x.rank := by
  cases x with
  | nan =>
      cases y with
      | nan => exact iff_of_false Bool.false_ne_true (Nat.lt_irrefl _)
      | infinite t => exact iff_of_true rfl (infinite_rank_lt t)
      | finite t b => exact iff_of_true rfl (finite_rank_lt_nan t b)
  | infinite s =>
      cases y with
      | nan => exact iff_of_false Bool.false_ne_true (Nat.lt_asymm (infinite_rank_lt s))
      | infinite t => exact iff_of_false Bool.false_ne_true (Nat.lt_irrefl _)
      | finite t b => exact iff_of_true rfl (finite_rank_lt t b s)
  | finite s a =>
      cases y with
      | nan => exact iff_of_false Bool.false_ne_true (Nat.lt_asymm (finite_rank_lt_nan s a))
      | infinite t => exact iff_of_false Bool.false_ne_true (Nat.lt_asymm (finite_rank_lt s a t))
      | finite t b => exact (finite_rank_lt_iff t s b a).symm

/-- Numbers in one place have one magnitude. -/
theorem abs_eq_of_rank_eq {x y : Binary64} (h : x.rank = y.rank) : x.abs = y.abs := by
  cases x with
  | nan =>
      cases y with
      | nan => rfl
      | infinite t => exact absurd h (Nat.ne_of_gt (infinite_rank_lt t))
      | finite t b => exact absurd h (Nat.ne_of_gt (finite_rank_lt_nan t b))
  | infinite s =>
      cases y with
      | nan => exact absurd h (Nat.ne_of_lt (infinite_rank_lt s))
      | infinite t => rfl
      | finite t b => exact absurd h (Nat.ne_of_gt (finite_rank_lt t b s))
  | finite s a =>
      cases y with
      | nan => exact absurd h (Nat.ne_of_lt (finite_rank_lt_nan s a))
      | infinite t => exact absurd h (Nat.ne_of_lt (finite_rank_lt s a t))
      | finite t b =>
          have ha := a.significand_lt
          have hb := b.significand_lt
          rw [rank, rank] at h
          have hmagnitude : a = b := Magnitude.ext (by omega) (by omega)
          rw [hmagnitude]
          rfl

instance : Scalar.Ranked Binary64 where
  outranks_asymm := by
    intro x y h
    have hlt := (outranks_iff x y).mp h
    exact Bool.eq_false_iff.mpr fun h' => Nat.lt_asymm hlt ((outranks_iff y x).mp h')
  not_outranks_trans := by
    intro x y z hxy hyz
    have hle : x.rank ≤ y.rank := Nat.not_lt.mp fun h =>
      Bool.false_ne_true (hxy.symm.trans ((outranks_iff x y).mpr h))
    have hle' : y.rank ≤ z.rank := Nat.not_lt.mp fun h =>
      Bool.false_ne_true (hyz.symm.trans ((outranks_iff y z).mpr h))
    exact Bool.eq_false_iff.mpr fun h =>
      Nat.not_lt.mpr (Nat.le_trans hle hle') ((outranks_iff x z).mp h)

/-- A magnitude is not below zero. -/
theorem abs_lt_zero (x : Binary64) : x.abs.lt zero = false := by
  cases x with
  | nan => rfl
  | infinite s => rfl
  | finite s m =>
      have hzero : ¬ m.lt .zero = true := by
        rw [Magnitude.lt_iff]
        simp [Magnitude.zero]
      exact Bool.eq_false_iff.mpr hzero

theorem isZero_iff (x : Binary64) : x.isZero = true ↔ ∃ s, x = finite s .zero := by
  cases x with
  | nan => exact iff_of_false Bool.false_ne_true (fun ⟨_, h⟩ => nomatch h)
  | infinite s => exact iff_of_false Bool.false_ne_true (fun ⟨_, h⟩ => nomatch h)
  | finite s m =>
      constructor
      · intro h
        exact ⟨s, congrArg (finite s) (m.isZero_iff.mp h)⟩
      · rintro ⟨t, ht⟩
        rw [ht]
        rfl

/-- What is above zero is above the magnitude of a zero. -/
theorem abs_lt_of_isZero {x y : Binary64} (hx : x.isZero = true) (hy : zero.lt y = true) :
    x.abs.lt y = true := by
  obtain ⟨s, rfl⟩ := (isZero_iff x).mp hx
  exact hy

/-- What reaches a bound above zero is not zero. -/
theorem isZero_eq_false_of_abs_not_lt {x y : Binary64} (hx : x.abs.lt y = false)
    (hy : zero.lt y = true) : x.isZero = false := by
  cases hzero : x.isZero with
  | false => rfl
  | true => exact nomatch hx.symm.trans (abs_lt_of_isZero hzero hy)

/-- What is below something is a number. -/
theorem isNaN_of_lt {x y : Binary64} (h : x.lt y = true) : x.isNaN = false := by
  cases x with
  | nan => exact absurd h Bool.false_ne_true
  | infinite s => rfl
  | finite s m => rfl

/-- Only the two zeros stand in the first place. -/
theorem rank_eq_zero_iff (s : Bool) (m : Magnitude) :
    (finite s m).rank = 0 ↔ m.isZero = true := by
  have hnormal := m.normal
  have hzero : m.isZero = true ↔ m.significand = 0 := beq_iff_eq
  rw [hzero, rank]
  omega

/-- The place of a number among all numbers: magnitudes count upwards from zero for positive numbers
and downwards for negative ones. -/
def signedRank (x : Binary64) : Int := if x.isNegative then -(x.rank : Int) else x.rank

theorem signedLt_iff (s t : Bool) (a b : Magnitude) :
    signedLt s a t b = true ↔ (finite s a).signedRank < (finite t b).signedRank := by
  cases s with
  | false =>
      cases t with
      | false => exact (finite_rank_lt_iff false false a b).symm.trans Int.ofNat_lt.symm
      | true =>
          -- nothing that is not negative is below a number that is not positive
          simp only [signedLt, signedRank, isNegative, Bool.false_eq_true, if_false, if_true,
            false_iff]
          omega
  | true =>
      cases t with
      | false =>
          -- only between the two zeros a minus sign makes no difference
          have ha := rank_eq_zero_iff true a
          have hb := rank_eq_zero_iff false b
          simp only [signedLt, signedRank, isNegative, Bool.false_eq_true, if_false, if_true]
          rw [Bool.not_eq_true', ← Bool.not_eq_true, Bool.and_eq_true, ← ha, ← hb]
          omega
      | true =>
          have hba := finite_rank_lt_iff true true b a
          simp only [signedLt, signedRank, isNegative, if_true]
          rw [← hba]
          omega

/-- **Numbers are compared by their places.** -/
theorem lt_iff (x y : Binary64) :
    x.lt y = true ↔ x.isNaN = false ∧ y.isNaN = false ∧ x.signedRank < y.signedRank := by
  cases x with
  | nan => simp [isNaN]
  | infinite s =>
      cases y with
      | nan => simp [isNaN]
      | infinite t => cases s <;> cases t <;> decide
      | finite t b =>
          have hlt := finite_rank_lt t b s
          have hrank : (infinite s).rank = 2046 * 0x20000000000000 := rfl
          cases s <;> cases t <;> simp [lt, isNaN, signedRank, isNegative] <;> omega
  | finite s a =>
      cases y with
      | nan => simp [isNaN]
      | infinite t =>
          have hlt := finite_rank_lt s a t
          cases s <;> cases t <;> simp [lt, isNaN, signedRank, isNegative] <;> omega
      | finite t b =>
          rw [lt, signedLt_iff]
          simp [isNaN]

/-- What is below a number is below every number that is not smaller. -/
theorem lt_of_lt_of_not_lt {x y z : Binary64} (hxy : x.lt y = true) (hz : z.isNaN = false)
    (hzy : z.lt y = false) : x.lt z = true := by
  rw [lt_iff] at hxy ⊢
  obtain ⟨hx, hy, hlt⟩ := hxy
  have hge : ¬ z.signedRank < y.signedRank := fun h =>
    Bool.false_ne_true (hzy.symm.trans ((lt_iff z y).mpr ⟨hz, hy, h⟩))
  exact ⟨hx, hz, by omega⟩

end Binary64

end RowReduction
