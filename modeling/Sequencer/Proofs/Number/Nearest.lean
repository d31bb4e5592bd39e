import Mathlib.Tactic
import Mathlib.Algebra.Order.Field.Power
import Sequencer.Number.Double

/-! # Rounding to the nearest double

`nearestBits` depends on the quotient alone, not on how it is written (`nearestBits_congr`); a
quotient that is a double is its own nearest one (`nearestBits_exact`); and it is infinity or zero
beyond the largest and below half the smallest double (`nearestBits_large`, `nearestBits_small`).
All three rest on `binaryExponent_unique`: the binary exponent is the one place between two powers
of two.
-/

namespace Sequencer.Number

/-! ## Rounding a quotient -/

theorem roundHalfEven_scale (numerator denominator : Nat) {factor : Nat} (positive : 0 < factor) :
    roundHalfEven (numerator * factor) (denominator * factor) =
      roundHalfEven numerator denominator := by
  simp only [roundHalfEven, Nat.mul_div_mul_right _ _ positive, Nat.mul_mod_mul_right,
    ← Nat.mul_assoc, Nat.mul_lt_mul_right positive, Nat.mul_right_cancel_iff positive]

theorem roundHalfEven_congr {numerator denominator numerator' denominator' : Nat}
    (positive : 0 < denominator) (positive' : 0 < denominator')
    (same : numerator * denominator' = numerator' * denominator) :
    roundHalfEven numerator denominator = roundHalfEven numerator' denominator' := by
  rw [← roundHalfEven_scale numerator denominator positive', same, Nat.mul_comm denominator,
    roundHalfEven_scale numerator' denominator' positive]

theorem roundHalfEven_exact (value : Nat) {denominator : Nat} (positive : 0 < denominator) :
    roundHalfEven (value * denominator) denominator = value := by
  rw [roundHalfEven, Nat.mul_div_cancel _ positive, Nat.mul_mod_left]
  exact if_pos (.inl positive)

theorem le_roundHalfEven {least numerator denominator : Nat} (positive : 0 < denominator)
    (bound : least * denominator ≤ numerator) : least ≤ roundHalfEven numerator denominator := by
  have quotient : least ≤ numerator / denominator := (Nat.le_div_iff_mul_le positive).mpr bound
  rw [roundHalfEven]
  split <;> omega

theorem roundHalfEven_eq_zero {numerator denominator : Nat}
    (small : 2 * numerator < denominator) : roundHalfEven numerator denominator = 0 := by
  have below : numerator < denominator := by omega
  rw [roundHalfEven, Nat.div_eq_of_lt below, Nat.mod_eq_of_lt below]
  exact if_pos (.inl small)

/-! ## Powers with a sign -/

theorem zpow_eq_div (base : Nat) (positive : 0 < base) (exponent : Int) :
    (base : ℚ) ^ exponent = (base ^ exponent.toNat : Nat) / (base ^ (-exponent).toNat : Nat) := by
  have nonzero : (base : ℚ) ≠ 0 := Nat.cast_ne_zero.mpr (Nat.ne_of_gt positive)
  rw [eq_div_iff (by positivity), Nat.cast_pow, Nat.cast_pow, ← zpow_natCast, ← zpow_natCast,
    ← zpow_add₀ nonzero]
  congr 1
  omega

/-- A quotient scaled by a power, in the form that needs no division. -/
theorem div_mul_zpow (numerator denominator base : Nat) (positive : 0 < base) (exponent : Int) :
    (numerator : ℚ) / denominator * (base : ℚ) ^ exponent =
      (numerator * Nat.pow base exponent.toNat : Nat) /
        (denominator * Nat.pow base (-exponent).toNat : Nat) := by
  rw [zpow_eq_div base positive, div_mul_div_comm, Nat.cast_mul, Nat.cast_mul]
  rfl

theorem natDiv_lt_iff {numerator denominator numerator' denominator' : Nat}
    (positive : 0 < denominator) (positive' : 0 < denominator') :
    (numerator : ℚ) / denominator < numerator' / denominator' ↔
      numerator * denominator' < numerator' * denominator := by
  rw [div_lt_div_iff₀ (Nat.cast_pos.mpr positive) (Nat.cast_pos.mpr positive')]
  exact_mod_cast Iff.rfl

theorem pow_pos_of_pos {base : Nat} (positive : 0 < base) (exponent : Nat) :
    0 < Nat.pow base exponent :=
  Nat.pow_pos positive

/-! ## The binary exponent -/

theorem zpow_two_lt_iff {low high : Int} : (2 : ℚ) ^ low < 2 ^ high ↔ low < high :=
  zpow_lt_zpow_iff_right₀ one_lt_two

/-- The quotient lies within one binary place of the estimate from the lengths. -/
theorem log2_estimate {numerator denominator : Nat} (positive : 0 < numerator)
    (positive' : 0 < denominator) :
    (2 : ℚ) ^ ((numerator.log2 : Int) - denominator.log2 - 1) < numerator / denominator ∧
      (numerator : ℚ) / denominator < 2 ^ ((numerator.log2 : Int) - denominator.log2 + 1) := by
  have denominatorCast : (0 : ℚ) < denominator := Nat.cast_pos.mpr positive'
  have numeratorLow : (2 : ℚ) ^ numerator.log2 ≤ numerator := by
    exact_mod_cast Nat.log2_self_le (Nat.ne_of_gt positive)
  have numeratorHigh : (numerator : ℚ) < 2 ^ (numerator.log2 + 1) := by
    exact_mod_cast Nat.lt_log2_self
  have denominatorLow : (2 : ℚ) ^ denominator.log2 ≤ denominator := by
    exact_mod_cast Nat.log2_self_le (Nat.ne_of_gt positive')
  have denominatorHigh : (denominator : ℚ) < 2 ^ (denominator.log2 + 1) := by
    exact_mod_cast Nat.lt_log2_self
  -- either side compares the powers of two around the two lengths
  constructor
  · rw [lt_div_iff₀ denominatorCast]
    calc (2 : ℚ) ^ ((numerator.log2 : Int) - denominator.log2 - 1) * denominator
        < 2 ^ ((numerator.log2 : Int) - denominator.log2 - 1) * 2 ^ (denominator.log2 + 1) := by
          gcongr
      _ = 2 ^ numerator.log2 := by
          rw [← zpow_natCast, ← zpow_natCast, ← zpow_add₀ two_ne_zero]
          congr 1
          push_cast
          omega
      _ ≤ numerator := numeratorLow
  · rw [div_lt_iff₀ denominatorCast]
    calc (numerator : ℚ) < 2 ^ (numerator.log2 + 1) := numeratorHigh
      _ = 2 ^ ((numerator.log2 : Int) - denominator.log2 + 1) * 2 ^ denominator.log2 := by
          rw [← zpow_natCast, ← zpow_natCast, ← zpow_add₀ two_ne_zero]
          congr 1
          push_cast
          omega
      _ ≤ 2 ^ ((numerator.log2 : Int) - denominator.log2 + 1) * denominator := by gcongr

/-- The comparison that settles the estimate. -/
theorem scaled_lt_iff {numerator denominator : Nat} (positive : 0 < denominator) (exponent : Int) :
    numerator * Nat.pow 2 (-exponent).toNat < denominator * Nat.pow 2 exponent.toNat ↔
      (numerator : ℚ) / denominator < 2 ^ exponent := by
  have power := zpow_eq_div 2 Nat.two_pos exponent
  rw [Nat.cast_two] at power
  rw [power, natDiv_lt_iff positive (Nat.two_pow_pos _), Nat.mul_comm denominator]
  rfl

theorem binaryExponent_spec {numerator denominator : Nat} (positive : 0 < numerator)
    (positive' : 0 < denominator) :
    (2 : ℚ) ^ binaryExponent numerator denominator ≤ numerator / denominator ∧
      (numerator : ℚ) / denominator < 2 ^ (binaryExponent numerator denominator + 1) := by
  obtain ⟨low, high⟩ := log2_estimate positive positive'
  rw [binaryExponent]
  split
  · next below =>
    rw [scaled_lt_iff positive'] at below
    rw [Int.sub_add_cancel]
    exact ⟨low.le, below⟩
  · next above =>
    rw [scaled_lt_iff positive', not_lt] at above
    exact ⟨above, high⟩

theorem binaryExponent_unique {numerator denominator : Nat} {exponent : Int}
    (positive : 0 < numerator) (positive' : 0 < denominator)
    (least : (2 : ℚ) ^ exponent ≤ numerator / denominator)
    (most : (numerator : ℚ) / denominator < 2 ^ (exponent + 1)) :
    binaryExponent numerator denominator = exponent := by
  obtain ⟨low, high⟩ := binaryExponent_spec positive positive'
  have below := zpow_two_lt_iff.mp (low.trans_lt most)
  have above := zpow_two_lt_iff.mp (least.trans_lt high)
  omega

/-! ## The nearest bits -/

theorem cross_of_div_eq {numerator denominator numerator' denominator' : Nat}
    (positive : 0 < denominator) (positive' : 0 < denominator')
    (same : (numerator : ℚ) / denominator = numerator' / denominator') :
    numerator * denominator' = numerator' * denominator := by
  rw [div_eq_div_iff (Nat.cast_ne_zero.mpr positive.ne') (Nat.cast_ne_zero.mpr positive'.ne')] at same
  exact_mod_cast same

theorem nearestBits_congr {numerator denominator numerator' denominator' : Nat}
    (positive : 0 < denominator) (positive' : 0 < denominator')
    (same : (numerator : ℚ) / denominator = numerator' / denominator') :
    nearestBits numerator denominator = nearestBits numerator' denominator' := by
  have cross := cross_of_div_eq positive positive' same
  rcases Nat.eq_zero_or_pos numerator with rfl | numeratorPositive
  · have zero : numerator' = 0 := by
      rw [Nat.zero_mul] at cross
      exact (Nat.mul_eq_zero.mp cross.symm).resolve_right positive.ne'
    rw [zero, nearestBits, nearestBits, if_pos rfl, if_pos rfl]
  · have numeratorPositive' : 0 < numerator' := by
      refine Nat.pos_of_ne_zero fun zero => ?_
      rw [zero, Nat.zero_mul] at cross
      exact (Nat.mul_pos numeratorPositive positive').ne' cross
    obtain ⟨low, high⟩ := binaryExponent_spec numeratorPositive' positive'
    rw [← same] at low high
    rw [nearestBits, nearestBits, if_neg numeratorPositive.ne', if_neg numeratorPositive'.ne',
      binaryExponent_unique numeratorPositive positive low high]
    dsimp only
    congr 2
    apply roundHalfEven_congr
    · exact Nat.mul_pos positive (pow_pos_of_pos Nat.two_pos _)
    · exact Nat.mul_pos positive' (pow_pos_of_pos Nat.two_pos _)
    · rw [Nat.mul_mul_mul_comm, cross, Nat.mul_mul_mul_comm]

/-- A quotient that is a whole number of units of a grid is rounded to that number. -/
theorem nearestBits_of_exponent {numerator denominator : Nat} {exponent : Int}
    (positive : 0 < numerator)
    (grid : max (binaryExponent numerator denominator - 52) leastExponent = exponent) :
    nearestBits numerator denominator =
      min (roundHalfEven (numerator * Nat.pow 2 (-exponent).toNat)
          (denominator * Nat.pow 2 exponent.toNat) +
        (exponent - leastExponent).toNat * leadingBit) infinityBits := by
  rw [nearestBits, if_neg positive.ne']
  simp only [grid]

theorem scaled_value {base : Nat} (positive : 0 < base) (coefficient : Nat) (exponent : Int) :
    ((coefficient * Nat.pow base exponent.toNat : Nat) : ℚ) / (Nat.pow base (-exponent).toNat : Nat) =
      coefficient * (base : ℚ) ^ exponent := by
  have scaled := div_mul_zpow coefficient 1 base positive exponent
  rw [Nat.cast_one, div_one, Nat.one_mul] at scaled
  exact scaled.symm

/-- A double is its own nearest double. -/
theorem nearestBits_exact {significand : Nat} {exponent : Int} (positive : 0 < significand)
    (small : significand < 2 ^ 53) (least : leastExponent ≤ exponent)
    (normal : 2 ^ 52 ≤ significand ∨ exponent = leastExponent) :
    nearestBits (significand * Nat.pow 2 exponent.toNat) (Nat.pow 2 (-exponent).toNat) =
      min (significand + (exponent - leastExponent).toNat * leadingBit) infinityBits := by
  have numeratorPositive : 0 < significand * Nat.pow 2 exponent.toNat :=
    Nat.mul_pos positive (Nat.two_pow_pos _)
  obtain ⟨low, high⟩ := binaryExponent_spec numeratorPositive
    (pow_pos_of_pos Nat.two_pos (-exponent).toNat)
  rw [scaled_value Nat.two_pos, Nat.cast_two] at low high
  have unit : (0 : ℚ) < 2 ^ exponent := by positivity
  have most : (significand : ℚ) * 2 ^ exponent < 2 ^ (53 + exponent) := by
    rw [zpow_add₀ two_ne_zero]
    gcongr
    exact_mod_cast small
  have grid : max (binaryExponent (significand * Nat.pow 2 exponent.toNat)
      (Nat.pow 2 (-exponent).toNat) - 52) leastExponent = exponent := by
    -- the significand fills its grid, or no grid is finer
    have above := zpow_two_lt_iff.mp (low.trans_lt most)
    rcases normal with leading | finest
    · have bound : (2 : ℚ) ^ (52 + exponent) ≤ significand * 2 ^ exponent := by
        rw [zpow_add₀ two_ne_zero]
        gcongr
        exact_mod_cast leading
      have below := zpow_two_lt_iff.mp (bound.trans_lt high)
      omega
    · omega
  rw [nearestBits_of_exponent numeratorPositive grid, Nat.mul_assoc,
    Nat.mul_comm (Nat.pow 2 exponent.toNat),
    roundHalfEven_exact _ (Nat.mul_pos (pow_pos_of_pos Nat.two_pos _) (pow_pos_of_pos Nat.two_pos _))]

theorem nearestBits_large {numerator denominator : Nat} (positive : 0 < denominator)
    (large : (2 : ℚ) ^ (1024 : Int) ≤ numerator / denominator) :
    nearestBits numerator denominator = infinityBits := by
  have numeratorPositive : 0 < numerator := by
    refine Nat.pos_of_ne_zero fun zero => ?_
    rw [zero, Nat.cast_zero, zero_div] at large
    exact absurd large (not_le.mpr (by positivity))
  obtain ⟨low, high⟩ := binaryExponent_spec numeratorPositive positive
  have huge := zpow_two_lt_iff.mp (large.trans_lt high)
  have whole := not_lt.mpr low
  rw [← scaled_lt_iff positive, not_lt] at whole
  have grid : max (binaryExponent numerator denominator - 52) leastExponent =
      binaryExponent numerator denominator - 52 := by
    simp only [leastExponent]
    omega
  rw [nearestBits_of_exponent numeratorPositive grid]
  generalize binaryExponent numerator denominator = binary at *
  -- the significand has its leading bit, and the exponent field is full without it
  have leading : 2 ^ 52 ≤ roundHalfEven (numerator * Nat.pow 2 (-(binary - 52)).toNat)
      (denominator * Nat.pow 2 (binary - 52).toNat) := by
    apply le_roundHalfEven (Nat.mul_pos positive (pow_pos_of_pos Nat.two_pos _))
    have shift : binary.toNat = 52 + (binary - 52).toNat := by omega
    rw [show (-binary).toNat = 0 by omega, shift, Nat.pow_eq, Nat.pow_eq, Nat.pow_add] at whole
    rw [show (-(binary - 52)).toNat = 0 by omega, Nat.pow_eq, Nat.pow_eq, Nat.mul_left_comm]
    exact whole
  have field : 2046 * leadingBit ≤ (binary - 52 - leastExponent).toNat * leadingBit := by
    apply Nat.mul_le_mul_right
    simp only [leastExponent]
    omega
  apply Nat.min_eq_right
  simp only [infinityBits, leadingBit] at *
  omega

theorem nearestBits_small {numerator denominator : Nat} (positive : 0 < denominator)
    (small : (numerator : ℚ) / denominator < (2 : ℚ) ^ (leastExponent - 1)) :
    nearestBits numerator denominator = 0 := by
  rcases Nat.eq_zero_or_pos numerator with rfl | numeratorPositive
  · rw [nearestBits, if_pos rfl]
  have grid : max (binaryExponent numerator denominator - 52) leastExponent = leastExponent := by
    have low := (binaryExponent_spec numeratorPositive positive).1
    have below := zpow_two_lt_iff.mp (low.trans_lt small)
    omega
  -- less than half a unit of the finest grid
  have tiny : 2 * (numerator * Nat.pow 2 (-leastExponent).toNat) <
      denominator * Nat.pow 2 leastExponent.toNat := by
    have scaled := (scaled_lt_iff positive (leastExponent - 1)).mpr small
    have finest : (-(leastExponent - 1)).toNat = 1 + (-leastExponent).toNat := rfl
    rw [finest, Nat.pow_eq, Nat.pow_add, Nat.pow_one, Nat.mul_left_comm] at scaled
    rw [Nat.pow_eq]
    exact scaled
  rw [nearestBits_of_exponent numeratorPositive grid, roundHalfEven_eq_zero tiny, Int.sub_self,
    Int.toNat_zero, Nat.zero_mul]
  exact Nat.zero_min _

end Sequencer.Number
