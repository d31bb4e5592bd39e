import Mathlib.Tactic
import Sequencer.Number.Text
import Sequencer.Proofs.Number.Nearest

/-! # Decimals and the doubles they stand for

Reading depends on the value of a decimal and not on its digits (`nearestDecimalBits_congr`), and
the shortcuts for sizes out of range agree with the rule (`toDouble_eq`). The search for few digits
takes no decimal that does not read back, and the exact value, to which it falls back, does:
`shortest_reads`.
-/

namespace Sequencer.Number

/-! ## Decimals by their value -/

theorem nearestDecimalBits_congr {coefficient coefficient' : Nat} {exponent exponent' : Int}
    (same : (coefficient : ℚ) * 10 ^ exponent = coefficient' * 10 ^ exponent') :
    nearestDecimalBits coefficient exponent = nearestDecimalBits coefficient' exponent' := by
  have ten : 0 < 10 := by decide
  apply nearestBits_congr (pow_pos_of_pos ten _) (pow_pos_of_pos ten _)
  rw [scaled_value ten, scaled_value ten]
  exact_mod_cast same

theorem digitCount_bounds {value : Nat} (positive : 0 < value) :
    1 ≤ digitCount value ∧ 10 ^ (digitCount value - 1) ≤ value ∧ value < 10 ^ digitCount value := by
  have count : digitCount value = (Nat.toDigits 10 value).length := if_neg positive.ne'
  rw [count]
  have some : 0 < (Nat.toDigits 10 value).length := Nat.length_toDigits_pos
  refine ⟨some, ?_, (Nat.length_toDigits_le_iff (by decide) some).mp (Nat.le_refl _)⟩
  rcases Nat.eq_zero_or_pos ((Nat.toDigits 10 value).length - 1) with single | several
  · rw [single]
    exact positive
  -- a smaller value would have one digit less
  · refine Nat.not_lt.mp fun below => ?_
    have shorter := (Nat.length_toDigits_le_iff (by decide) several).mpr below
    omega

/-- One bound serves both ends of the range of doubles. -/
theorem two_zpow_lt_ten_zpow : (2 : ℚ) ^ (1080 : Int) < 10 ^ (330 : Int) := by
  have base : (2 : ℚ) ^ (108 : Int) < 10 ^ (33 : Int) := by norm_num
  calc (2 : ℚ) ^ (1080 : Int) = (2 ^ (108 : Int)) ^ 10 := by
        rw [← zpow_natCast, ← zpow_mul]
        rfl
    _ < (10 ^ (33 : Int)) ^ 10 := by gcongr
    _ = 10 ^ (330 : Int) := by
        rw [← zpow_natCast, ← zpow_mul]
        rfl

theorem decimal_bounds {coefficient : Nat} (positive : 0 < coefficient) (exponent : Int) :
    (10 : ℚ) ^ (digitCount coefficient + exponent - 1) ≤ coefficient * 10 ^ exponent ∧
      (coefficient : ℚ) * 10 ^ exponent < 10 ^ (digitCount coefficient + exponent) := by
  obtain ⟨some, low, high⟩ := digitCount_bounds positive
  have unit : (0 : ℚ) < 10 ^ exponent := by positivity
  have lowCast : (10 : ℚ) ^ (digitCount coefficient - 1) ≤ coefficient := by exact_mod_cast low
  have highCast : (coefficient : ℚ) < 10 ^ digitCount coefficient := by exact_mod_cast high
  constructor
  · have shift : (digitCount coefficient + exponent - 1 : Int) =
        (digitCount coefficient - 1 : Nat) + exponent := by omega
    rw [shift, zpow_add₀ (by norm_num), zpow_natCast]
    gcongr
  · rw [zpow_add₀ (by norm_num), zpow_natCast]
    gcongr

theorem nearestDecimalBits_zero (exponent : Int) : nearestDecimalBits 0 exponent = 0 := by
  rw [nearestDecimalBits, Nat.zero_mul, nearestBits, if_pos rfl]

theorem nearestDecimalBits_small {coefficient : Nat} {exponent : Int}
    (positive : 0 < coefficient) (small : digitCount coefficient + exponent < -330) :
    nearestDecimalBits coefficient exponent = 0 := by
  have ten : 0 < 10 := by decide
  apply nearestBits_small (pow_pos_of_pos ten _)
  rw [scaled_value ten]
  calc (coefficient : ℚ) * (10 : Nat) ^ exponent
      < 10 ^ (digitCount coefficient + exponent) := (decimal_bounds positive exponent).2
    _ ≤ 10 ^ (-330 : Int) := zpow_le_zpow_right₀ (by norm_num) (by omega)
    _ = (10 ^ (330 : Int))⁻¹ := zpow_neg _ _
    _ ≤ (2 ^ (1080 : Int))⁻¹ := inv_anti₀ (by positivity) two_zpow_lt_ten_zpow.le
    _ = 2 ^ (-1080 : Int) := (zpow_neg _ _).symm
    _ ≤ 2 ^ (leastExponent - 1) := zpow_le_zpow_right₀ one_le_two (by decide)

theorem nearestDecimalBits_large {coefficient : Nat} {exponent : Int}
    (positive : 0 < coefficient) (large : 330 < digitCount coefficient + exponent) :
    nearestDecimalBits coefficient exponent = infinityBits := by
  have ten : 0 < 10 := by decide
  apply nearestBits_large (pow_pos_of_pos ten _)
  rw [scaled_value ten]
  calc (2 : ℚ) ^ (1024 : Int) ≤ 2 ^ (1080 : Int) := zpow_le_zpow_right₀ one_le_two (by decide)
    _ ≤ 10 ^ (330 : Int) := two_zpow_lt_ten_zpow.le
    _ ≤ 10 ^ (digitCount coefficient + exponent - 1) :=
        zpow_le_zpow_right₀ (by norm_num) (by omega)
    _ ≤ coefficient * (10 : Nat) ^ exponent := (decimal_bounds positive exponent).1

/-- The shortcuts for sizes out of range agree with the rule. -/
theorem toDouble_eq (decimal : Decimal) :
    decimal.toDouble =
      signed decimal.negative (nearestDecimalBits decimal.coefficient decimal.exponent) := by
  rcases Nat.eq_zero_or_pos decimal.coefficient with zero | positive
  · rw [Decimal.toDouble, if_pos (.inl zero), zero, nearestDecimalBits_zero]
  · rw [Decimal.toDouble]
    split
    · next small =>
      rw [nearestDecimalBits_small positive (small.resolve_left positive.ne')]
    · split
      · next large =>
        rw [nearestDecimalBits_large positive large]
        rfl
      · rfl

/-! ## Fewest digits -/

theorem withoutZero_value (coefficient : Nat) (exponent : Int) :
    ((withoutZero coefficient exponent).1 : ℚ) * 10 ^ (withoutZero coefficient exponent).2 =
      coefficient * 10 ^ exponent := by
  rw [withoutZero]
  split
  · next ends =>
    have whole : coefficient = coefficient / 10 * 10 := by omega
    conv_rhs => rw [whole]
    rw [zpow_add_one₀ (by norm_num)]
    push_cast
    ring
  · rfl

theorem shortestOf?_reads {tie : Tie} {bits numerator denominator : Nat} {exponent : Int}
    {decimal : Nat × Int}
    (found : shortestOf? tie bits numerator denominator exponent = some decimal) :
    nearestDecimalBits decimal.1 decimal.2 = bits := by
  obtain ⟨coefficient, candidate, rfl⟩ := Option.map_eq_some_iff.mp found
  have accepted := List.find?_some candidate
  rw [nearestDecimalBits_congr (withoutZero_value coefficient exponent)]
  exact eq_of_beq accepted

theorem exactDecimal_value (significand : Nat) (exponent : Int) :
    ((exactDecimal significand exponent).1 : ℚ) * 10 ^ (exactDecimal significand exponent).2 =
      significand * 2 ^ exponent := by
  rw [exactDecimal]
  rcases Int.le_total 0 exponent with whole | fraction
  · obtain ⟨power, rfl⟩ := Int.eq_ofNat_of_zero_le whole
    rw [min_eq_right whole, Int.toNat_natCast, Int.toNat_neg_natCast]
    simp
  · obtain ⟨power, negated⟩ := Int.eq_ofNat_of_zero_le (Int.neg_nonneg.mpr fraction)
    obtain rfl : exponent = -power := by omega
    -- half of a unit is five tenths of it
    have half : (5 : ℚ) ^ power * (10 ^ power)⁻¹ = (2 ^ power)⁻¹ := by
      rw [← div_eq_mul_inv, ← div_pow, ← inv_pow]
      norm_num
    rw [min_eq_left fraction, Int.toNat_neg_natCast, Int.neg_neg, Int.toNat_natCast, zpow_neg,
      zpow_neg, zpow_natCast, zpow_natCast, ← half]
    simp [mul_assoc]

/-- Whatever digits are chosen, they read back to the double that was written. -/
theorem shortest_reads (tie : Tie) (significand : Nat) (exponent : Int) :
    nearestDecimalBits (shortest tie significand exponent).1 (shortest tie significand exponent).2 =
      nearestBits (quotient significand exponent).1 (quotient significand exponent).2 := by
  rw [shortest]
  dsimp only
  generalize search : List.findSome? _ _ = found
  cases found with
  | some decimal =>
    -- no candidate is taken unread
    obtain ⟨count, _, taken⟩ := List.exists_of_findSome?_eq_some search
    exact shortestOf?_reads taken
  | none =>
    -- without a candidate every digit is written, and the value is the double itself
    have ten : 0 < 10 := by decide
    apply nearestBits_congr (pow_pos_of_pos ten _) (pow_pos_of_pos Nat.two_pos _)
    rw [scaled_value ten, quotient, scaled_value Nat.two_pos]
    exact_mod_cast exactDecimal_value significand exponent

end Sequencer.Number
