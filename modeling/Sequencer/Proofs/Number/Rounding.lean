import Sequencer.Proofs.Number.Order

/-! # Rounding

An exact significand and exponent are rounded on the grid of their size. What comes out is on that
grid or the next, and never below a double that the exact number is not below: `place_le_round`.
-/

namespace Sequencer.Number

open Float.Model Float.Model.UnpackedFloat

/-! ## Shifting -/

theorem mantissa_shiftRight (extended : ExtendedMantissa) (count : Nat) :
    (extended >>> count).mantissa = extended.mantissa / 2 ^ count := by
  change (Nat.repeat ExtendedMantissa.shiftRightOne count extended).mantissa = _
  induction count with
  | zero => simp [Nat.repeat]
  | succ count inductionHypothesis =>
    rw [Nat.repeat, ExtendedMantissa.shiftRightOne, inductionHypothesis, Nat.div_div_eq_div_mul,
      Nat.pow_succ]

theorem roundedMantissa_bounds (extended : ExtendedMantissa) :
    extended.mantissa ≤ extended.roundedMantissa ∧
      extended.roundedMantissa ≤ extended.mantissa + 1 := by
  obtain ⟨mantissa, round, sticky⟩ := extended
  cases round <;> cases sticky <;>
    simp only [ExtendedMantissa.roundedMantissa, ExtendedMantissa.accuracy,
      Accuracy.roundToNearestEven] <;> omega

theorem log2_shiftLeft {significand : Nat} (positive : 0 < significand) (count : Nat) :
    (significand <<< count).log2 = significand.log2 + count := by
  rw [Nat.shiftLeft_eq, Nat.log2_eq_iff (by positivity), Nat.pow_add,
    Nat.add_right_comm, Nat.pow_add]
  exact ⟨Nat.mul_le_mul_right _ (Nat.log2_self_le positive.ne'),
    Nat.mul_lt_mul_of_pos_right Nat.lt_log2_self (Nat.two_pow_pos count)⟩

/-! ## Grids -/

/-- The exponent of the grid on which a number is rounded. -/
def gridOf (significand : Nat) (exponent : Int) : Int :=
  max (significand.log2 + 1 + exponent - 53) leastExponent

/-- A number on a grid, cut off there. -/
def wholeOn (grid : Int) (significand : Nat) (exponent : Int) : Nat :=
  significand * 2 ^ (exponent - grid).toNat / 2 ^ (grid - exponent).toNat

/-- The grid is finer than the number's own, or coarser. -/
theorem wholeOn_cases (grid : Int) (significand : Nat) (exponent : Int) :
    (∃ count : Nat, exponent = grid + count ∧
        wholeOn grid significand exponent = significand * 2 ^ count) ∨
      ∃ count : Nat, grid = exponent + count ∧
        wholeOn grid significand exponent = significand / 2 ^ count := by
  rcases le_total grid exponent with finer | coarser
  · refine .inl ⟨(exponent - grid).toNat, by omega, ?_⟩
    rw [wholeOn, Int.toNat_of_nonpos (by omega : grid - exponent ≤ 0), pow_zero, Nat.div_one]
  · refine .inr ⟨(grid - exponent).toNat, by omega, ?_⟩
    rw [wholeOn, Int.toNat_of_nonpos (by omega : exponent - grid ≤ 0), pow_zero, Nat.mul_one]

theorem wholeOn_lt {significand size : Nat} {grid exponent : Int}
    (high : significand < 2 ^ (size + 1)) (grid_le : size + 1 + exponent - 53 ≤ grid) :
    wholeOn grid significand exponent < 2 * leadingBit := by
  have leading : 2 * leadingBit = 2 ^ 53 := rfl
  rw [leading]
  rcases wholeOn_cases grid significand exponent with ⟨count, same, whole⟩ | ⟨count, same, whole⟩
  · rw [whole]
    calc significand * 2 ^ count
      _ < 2 ^ (size + 1) * 2 ^ count := Nat.mul_lt_mul_of_pos_right high (Nat.two_pow_pos count)
      _ = 2 ^ (size + 1 + count) := (Nat.pow_add _ _ _).symm
      _ ≤ 2 ^ 53 := Nat.pow_le_pow_right (by decide) (by omega)
  · rw [whole, Nat.div_lt_iff_lt_mul (Nat.two_pow_pos count), ← Nat.pow_add]
    exact high.trans_le (Nat.pow_le_pow_right (by decide) (by omega))

theorem le_wholeOn {significand size : Nat} {grid exponent : Int} (low : 2 ^ size ≤ significand)
    (grid_eq : grid = size + 1 + exponent - 53) :
    leadingBit ≤ wholeOn grid significand exponent := by
  have leading : leadingBit = 2 ^ 52 := rfl
  rw [leading]
  rcases wholeOn_cases grid significand exponent with ⟨count, same, whole⟩ | ⟨count, same, whole⟩
  · rw [whole]
    calc 2 ^ 52
      _ = 2 ^ size * 2 ^ count := by rw [← Nat.pow_add]; congr 1; omega
      _ ≤ significand * 2 ^ count := Nat.mul_le_mul_right _ low
  · rw [whole, Nat.le_div_iff_mul_le (Nat.two_pow_pos count), ← Nat.pow_add]
    exact (Nat.pow_le_pow_right (by decide) (by omega)).trans low

theorem onGrid_wholeOn {significand : Nat} (positive : 0 < significand) (exponent : Int) :
    OnGrid (wholeOn (gridOf significand exponent) significand exponent)
      (gridOf significand exponent) where
  small := wholeOn_lt Nat.lt_log2_self (Int.le_max_left _ _)
  least := Int.le_max_right _ _
  normal := by
    rcases max_choice (significand.log2 + 1 + exponent - 53 : Int) leastExponent with own | least
    · exact .inl (le_wholeOn (Nat.log2_self_le positive.ne') own)
    · exact .inr least

/-- A double that is not above a number is not above it once it has been cut off. -/
theorem place_le_wholeOn {significand' : Nat} {exponent' : Int}
    (grid : OnGrid significand' exponent') {significand : Nat} (positive : 0 < significand) {exponent : Int} {count : Nat}
    (finer : exponent' = exponent + count) (below : significand' * 2 ^ count ≤ significand) :
    place significand' exponent' ≤
      place (wholeOn (gridOf significand exponent) significand exponent)
        (gridOf significand exponent) := by
  have own := onGrid_wholeOn positive exponent
  rcases lt_trichotomy exponent' (gridOf significand exponent) with lower | same | higher
  · exact (place_lt_of_exponent grid own lower).le
  · rw [← same]
    have whole : significand' ≤ wholeOn exponent' significand exponent := by
      rw [wholeOn, finer, show exponent - (exponent + count) = -(count : Int) by omega,
        show exponent + count - exponent = (count : Int) by omega, Int.toNat_neg_natCast,
        Int.toNat_natCast, pow_zero, Nat.mul_one]
      exact (Nat.le_div_iff_mul_le (Nat.two_pow_pos count)).mpr below
    rw [place, place]
    omega
  · -- a double on a coarser grid than that is too large
    have leading : leadingBit ≤ significand' := by
      refine grid.normal.resolve_right fun least => ?_
      have := own.least
      omega
    have size : 52 + count ≤ significand.log2 := by
      refine (Nat.le_log2 positive.ne').mpr (le_trans ?_ below)
      rw [Nat.pow_add]
      exact Nat.mul_le_mul_right _ leading
    rw [gridOf] at higher
    omega

/-! ## Rounding -/

theorem shiftToTargetExponent_fst (significand : Nat) (exponent : Int) :
    (shiftToTargetExponent Format.binary64 significand exponent .exact).1.mantissa =
      significand / 2 ^ (gridOf significand exponent - exponent).toNat :=
  mantissa_shiftRight _ _

theorem shiftToTargetExponent_snd (significand : Nat) (exponent : Int) :
    (shiftToTargetExponent Format.binary64 significand exponent .exact).2 =
      exponent + (gridOf significand exponent - exponent).toNat := rfl

/-- Rounding up may have filled one bit more, which moves the exponent. -/
theorem carry_spec {significand : Nat} {exponent : Int} (small : significand ≤ 2 * leadingBit)
    (least : leastExponent ≤ exponent)
    (normal : leadingBit ≤ significand ∨ exponent = leastExponent) :
    let carried := shiftToTargetExponent Format.binary64 significand exponent .exact
    OnGrid carried.1.mantissa carried.2 ∧
      place carried.1.mantissa carried.2 = place significand exponent := by
  dsimp only
  rw [shiftToTargetExponent_fst, shiftToTargetExponent_snd]
  have leading : 2 * leadingBit = 2 ^ 53 := rfl
  rcases Nat.lt_or_eq_of_le small with fits | full
  · have size : significand.log2 ≤ 52 := by
      rcases Nat.eq_zero_or_pos significand with rfl | positive
      · simp
      · exact Nat.le_of_lt_succ ((Nat.log2_lt positive.ne').mpr (leading ▸ fits))
    have still : (gridOf significand exponent - exponent).toNat = 0 := by
      rw [gridOf]
      omega
    rw [still, pow_zero, Nat.div_one, Int.natCast_zero, Int.add_zero]
    exact ⟨⟨fits, least, normal⟩, rfl⟩
  · subst full
    have size : (2 * leadingBit).log2 = 53 := by rw [leading, Nat.log2_two_pow]
    have moved : (gridOf (2 * leadingBit) exponent - exponent).toNat = 1 := by
      rw [gridOf, size]
      omega
    rw [moved, pow_one, Nat.mul_div_cancel_left _ (by decide : 0 < 2)]
    refine ⟨⟨by decide, by omega, .inl le_rfl⟩, ?_⟩
    simp only [place]
    push_cast
    ring

theorem gridOf_decreased {significand : Nat} (positive : 0 < significand) (exponent : Int)
    (count : Nat) :
    gridOf (significand <<< count) (exponent - count) = gridOf significand exponent := by
  rw [gridOf, gridOf, log2_shiftLeft positive]
  congr 1
  omega

/-- The first shift of a rounding cuts off what is below the grid. -/
theorem first_shift {significand : Nat} (positive : 0 < significand) (exponent : Int) :
    let count := (exponent - gridOf significand exponent).toNat
    let first := shiftToTargetExponent Format.binary64 (significand <<< count) (exponent - count)
      .exact
    first.1.mantissa = wholeOn (gridOf significand exponent) significand exponent ∧
      first.2 = gridOf significand exponent := by
  dsimp only
  rw [shiftToTargetExponent_fst, shiftToTargetExponent_snd, gridOf_decreased positive, wholeOn,
    Nat.shiftLeft_eq]
  generalize gridOf significand exponent = grid
  refine ⟨?_, by omega⟩
  congr 2
  omega

theorem wholeOn_pos {significand : Nat} (positive : 0 < significand) {exponent : Int}
    (exact : leastExponent ≤ exponent) :
    0 < wholeOn (gridOf significand exponent) significand exponent := by
  rcases (onGrid_wholeOn positive exponent).normal with leading | least
  · exact leading.trans_lt' (by decide)
  · rcases wholeOn_cases (gridOf significand exponent) significand exponent with
      ⟨count, same, whole⟩ | ⟨count, same, whole⟩
    · rw [whole]
      positivity
    · obtain rfl : count = 0 := by omega
      rw [whole, pow_zero, Nat.div_one]
      exact positive

/-- What is left after cutting off, and is not zero, is rounded to a double that is not below it. -/
theorem roundWithAccuracy_spec {significand : Nat} {exponent : Int} {accuracy : Accuracy}
    {first : ExtendedMantissa × Int}
    (shifted : shiftToTargetExponent Format.binary64 significand exponent accuracy = first)
    (grid : OnGrid first.1.mantissa first.2) (some : 0 < first.1.mantissa) (sign : Sign) :
    ∃ significand' exponent' positive,
      roundWithAccuracy Format.binary64 sign significand exponent accuracy =
        .finite sign significand' exponent' positive ∧
      OnGrid significand' exponent' ∧
      place first.1.mantissa first.2 ≤ place significand' exponent' := by
  obtain ⟨atLeast, atMost⟩ := roundedMantissa_bounds first.1
  have small := grid.small
  have full : first.1.roundedMantissa ≤ 2 * leadingBit := by omega
  obtain ⟨onGrid, same⟩ :=
    carry_spec full grid.least (grid.normal.imp_left fun leading => leading.trans atLeast)
  have grown : place first.1.mantissa first.2 ≤ place first.1.roundedMantissa first.2 := by
    rw [place, place]
    omega
  have positivePlace := (place_pos grid some).trans_le (grown.trans_eq same.symm)
  have filled : (shiftToTargetExponent Format.binary64 first.1.roundedMantissa first.2
      .exact).1.mantissa ≠ 0 := by
    intro none
    -- a zero has no place above the least
    rw [none] at positivePlace onGrid
    rcases onGrid.normal with leading | least
    · cases leading
    · rw [least] at positivePlace
      exact absurd positivePlace (by simp [place])
  rw [roundWithAccuracy, shifted]
  exact ⟨_, _, _, dif_neg filled, onGrid, grown.trans_eq same.symm⟩

/-- What a number is rounded to is no less than what is left of it after cutting off. -/
theorem round_spec {significand : Nat} (positive : 0 < significand) {exponent : Int}
    (exact : leastExponent ≤ exponent) (sign : Sign) :
    ∃ significand' exponent' positive',
      UnpackedFloat.round Format.binary64 sign significand exponent =
        .finite sign significand' exponent' positive' ∧
      OnGrid significand' exponent' ∧
      place (wholeOn (gridOf significand exponent) significand exponent)
        (gridOf significand exponent) ≤ place significand' exponent' := by
  obtain ⟨whole, grid⟩ := first_shift positive exponent
  obtain ⟨significand', exponent', positive', rounded, own, atLeast⟩ :=
    roundWithAccuracy_spec rfl (by rw [whole, grid]; exact onGrid_wholeOn positive exponent)
      (by rw [whole]; exact wholeOn_pos positive exact) sign
  rw [whole, grid] at atLeast
  exact ⟨significand', exponent', positive', rounded, own, atLeast⟩

/-- A double that is not above a number is not above what the number is rounded to. -/
theorem place_le_round {significand' : Nat} {exponent' : Int} (grid : OnGrid significand' exponent')
    {significand : Nat} (positive : 0 < significand) {exponent : Int}
    (exact : leastExponent ≤ exponent) {count : Nat} (finer : exponent' = exponent + count)
    (below : significand' * 2 ^ count ≤ significand) (sign : Sign) :
    ∃ rounded roundedExponent positive',
      UnpackedFloat.round Format.binary64 sign significand exponent =
        .finite sign rounded roundedExponent positive' ∧
      OnGrid rounded roundedExponent ∧
      place significand' exponent' ≤ place rounded roundedExponent := by
  obtain ⟨rounded, roundedExponent, positive', same, own, cut⟩ := round_spec positive exact sign
  exact ⟨rounded, roundedExponent, positive', same, own,
    (place_le_wholeOn grid positive finer below).trans cut⟩

end Sequencer.Number
