import Sequencer.Proofs.Number.Largest
import Sequencer.Proofs.Number.Rounding

/-! # One as a factor

A double that is multiplied by one has its significand moved up by the bits of the other, and rounding
moves it back without a loss: `one_mul_eq`.
-/

namespace Sequencer.Number

open Float.Model Float.Model.UnpackedFloat

/-- Only zeros are shifted out. -/
theorem shiftRight_exact (significand count : Nat) :
    ({ mantissa := significand * 2 ^ count, roundBit := false, stickyBit := false } :
      ExtendedMantissa) >>> count =
        { mantissa := significand, roundBit := false, stickyBit := false } := by
  change Nat.repeat ExtendedMantissa.shiftRightOne count _ = _
  induction count generalizing significand with
  | zero => simp [Nat.repeat]
  | succ count inductionHypothesis =>
    have regrouped : significand * 2 ^ (count + 1) = significand * 2 * 2 ^ count := by
      rw [Nat.pow_succ]
      ring
    rw [Nat.repeat, regrouped, inductionHypothesis, ExtendedMantissa.shiftRightOne]
    simp

/-- A double is on the grid of its own size. -/
theorem gridOf_of_onGrid {significand : Nat} {exponent : Int} (grid : OnGrid significand exponent)
    (positive : 0 < significand) : gridOf significand exponent = exponent := by
  obtain ⟨small, least, normal⟩ := grid
  have small : significand < 2 ^ 53 := small
  have size : significand.log2 < 53 := (Nat.log2_lt positive.ne').mpr small
  rw [gridOf]
  rcases normal with leading | rfl
  · have size' : 52 ≤ significand.log2 := (Nat.le_log2 positive.ne').mpr leading
    omega
  · omega

/-- The bits that a significand has been moved up by are shifted out again. -/
theorem shiftToTargetExponent_exact {significand : Nat} {exponent : Int}
    (grid : OnGrid significand exponent) (positive : 0 < significand) (count : Nat) :
    shiftToTargetExponent Format.binary64 (significand * 2 ^ count) (exponent - count) .exact =
      ({ mantissa := significand, roundBit := false, stickyBit := false }, exponent) := by
  have amount : (gridOf (significand * 2 ^ count) (exponent - count) - (exponent - count)).toNat =
      count := by
    rw [← Nat.shiftLeft_eq, gridOf_decreased positive, gridOf_of_onGrid grid positive]
    omega
  have shifted : (shiftToTargetExponent Format.binary64 (significand * 2 ^ count)
      (exponent - count) .exact).1 =
        ({ mantissa := significand * 2 ^ count, roundBit := false, stickyBit := false } :
          ExtendedMantissa) >>>
            (gridOf (significand * 2 ^ count) (exponent - count) - (exponent - count)).toNat := rfl
  refine Prod.ext ?_ ?_
  · rw [shifted, amount, shiftRight_exact]
  · rw [shiftToTargetExponent_snd, amount]
    exact Int.sub_add_cancel exponent count

theorem roundWithAccuracy_exact {significand : Nat} {exponent : Int}
    (grid : OnGrid significand exponent) (positive : 0 < significand) (count : Nat) (sign : Sign) :
    roundWithAccuracy Format.binary64 sign (significand * 2 ^ count) (exponent - count) .exact =
      .finite sign significand exponent positive := by
  -- what has been rounded is put on its grid once more, where it is already
  have again := shiftToTargetExponent_exact grid positive 0
  rw [pow_zero, Nat.mul_one, Int.natCast_zero, Int.sub_zero] at again
  rw [roundWithAccuracy, shiftToTargetExponent_exact grid positive count]
  dsimp only
  rw [ExtendedMantissa.roundedMantissa, ExtendedMantissa.accuracy, Accuracy.roundToNearestEven,
    again]
  exact dif_neg positive.ne'

theorem one_mul_eq (value : Float) : 1 * value = value := by
  have one : (1 : Float).toModel.unpack = .finite .positive (2 ^ 52) (-52) (by decide) := rfl
  apply eq_of_unpack
  rw [unpack_mul, one]
  have fits := fits_unpack value
  cases shape : value.toModel.unpack with
  | notANumber => exact repacked_eq_notANumber_iff.mpr rfl
  | infinity sign =>
    cases sign <;> exact repacked_infinity _
  | zero sign =>
    cases sign <;> exact repacked_zero _
  | finite sign significand exponent positive =>
    rw [shape] at fits
    obtain ⟨grid, most⟩ := fits
    -- one is 2 ^ 52 halved 52 times
    have product : UnpackedFloat.mul Format.binary64 (.finite .positive (2 ^ 52) (-52) (by decide))
        (.finite sign significand exponent positive) =
          roundWithAccuracy Format.binary64 sign (significand * 2 ^ 52) (exponent - 52) .exact := by
      rw [Nat.mul_comm, Int.sub_eq_add_neg, Int.add_comm]
      cases sign <;> rfl
    have exact : exponent - 52 = exponent - (52 : Nat) := rfl
    rw [product, exact, roundWithAccuracy_exact grid positive, repacked_of_onGrid grid most]

end Sequencer.Number
