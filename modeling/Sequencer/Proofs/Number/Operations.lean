import Sequencer.Proofs.Number.Packing

/-! # Sums, products and quotients

Zero times infinity is the only product of numbers that is not a number, and infinities against each
other are the only such sum. Products and quotients of what is not negative are not negative, and a
sum is no less than what something has been added to: `le_add`.
-/

namespace Sequencer.Number

open Float.Model Float.Model.UnpackedFloat

theorem unpack_add (left right : Float) :
    (left + right).toModel.unpack =
      repacked (UnpackedFloat.add Format.binary64 left.toModel.unpack right.toModel.unpack) := rfl

theorem unpack_mul (left right : Float) :
    (left * right).toModel.unpack =
      repacked (UnpackedFloat.mul Format.binary64 left.toModel.unpack right.toModel.unpack) := rfl

theorem unpack_div (left right : Float) :
    (left / right).toModel.unpack =
      repacked (UnpackedFloat.div Format.binary64 left.toModel.unpack right.toModel.unpack) := rfl

/-! ## Signs of rounded results -/

theorem signOf_roundWithAccuracy (sign : Sign) (significand : Nat) (exponent : Int)
    (accuracy : Accuracy) :
    signOf (roundWithAccuracy Format.binary64 sign significand exponent accuracy) = some sign := by
  rw [roundWithAccuracy]
  dsimp only
  split <;> rfl

theorem roundWithAccuracy_ne_notANumber (sign : Sign) (significand : Nat) (exponent : Int)
    (accuracy : Accuracy) :
    roundWithAccuracy Format.binary64 sign significand exponent accuracy ≠ .notANumber := by
  rw [ne_eq, ← signOf_eq_none_iff, signOf_roundWithAccuracy]
  simp

theorem notNegative_roundWithAccuracy (significand : Nat) (exponent : Int) (accuracy : Accuracy) :
    NotNegative (roundWithAccuracy Format.binary64 .positive significand exponent accuracy) :=
  notNegative_of_signOf (signOf_roundWithAccuracy _ _ _ _)

/-! ## Products and quotients -/

/-- One factor is zero and the other infinite. -/
def Clash (left right : Float) : Prop :=
  (left == 0) = true ∧ right.isInf = true ∨ left.isInf = true ∧ (right == 0) = true

theorem mul_eq_nan {left right : Float} (product : left * right = .nan) :
    left = .nan ∨ right = .nan ∨ Clash left right := by
  rw [← unpack_eq_notANumber_iff, unpack_mul, repacked_eq_notANumber_iff] at product
  rw [← unpack_eq_notANumber_iff, ← unpack_eq_notANumber_iff]
  cases first : left.toModel.unpack with
  | notANumber => exact .inl rfl
  | infinity sign =>
    cases second : right.toModel.unpack with
    | notANumber => exact .inr (.inl rfl)
    | zero sign' => exact .inr (.inr (.inr ⟨isInf_of_unpack first, eq_zero_of_unpack second⟩))
    | infinity sign' | finite sign' =>
      rw [first, second] at product
      cases product
  | zero sign =>
    cases second : right.toModel.unpack with
    | notANumber => exact .inr (.inl rfl)
    | infinity sign' => exact .inr (.inr (.inl ⟨eq_zero_of_unpack first, isInf_of_unpack second⟩))
    | zero sign' | finite sign' =>
      rw [first, second] at product
      cases product
  | finite sign significand exponent positive =>
    cases second : right.toModel.unpack with
    | notANumber => exact .inr (.inl rfl)
    | infinity sign' | zero sign' =>
      rw [first, second] at product
      cases product
    | finite sign' significand' exponent' positive' =>
      rw [first, second] at product
      exact absurd product (roundWithAccuracy_ne_notANumber _ _ _ _)

theorem mul_nonneg {left right : Float} (first : 0 ≤ left) (second : 0 ≤ right)
    (number : left * right ≠ .nan) : 0 ≤ left * right := by
  rw [ne_eq, ← unpack_eq_notANumber_iff, unpack_mul, repacked_eq_notANumber_iff] at number
  rw [nonneg_iff] at first second
  rw [nonneg_iff, unpack_mul]
  refine NotNegative.repacked ?_
  generalize left.toModel.unpack = left at *
  generalize right.toModel.unpack = right at *
  cases left with
  | notANumber => exact first.elim
  | infinity sign =>
    cases right with
    | notANumber => exact second.elim
    | zero sign' => exact absurd rfl number
    | infinity sign' | finite sign' =>
      obtain rfl : sign = .positive := first
      obtain rfl : sign' = .positive := second
      rfl
  | zero sign =>
    cases right with
    | notANumber => exact second.elim
    | infinity sign' => exact absurd rfl number
    | zero sign' | finite sign' => trivial
  | finite sign significand exponent positive =>
    cases right with
    | notANumber => exact second.elim
    | zero sign' => trivial
    | infinity sign' =>
      obtain rfl : sign = .positive := first
      obtain rfl : sign' = .positive := second
      rfl
    | finite sign' significand' exponent' positive' =>
      obtain rfl : sign = .positive := first
      obtain rfl : sign' = .positive := second
      exact notNegative_roundWithAccuracy _ _ _

theorem cases_of_pos {value : Float} (positive : 0 < value) :
    value.toModel.unpack = .infinity .positive ∨
      ∃ significand exponent some,
        value.toModel.unpack = .finite .positive significand exponent some := by
  rw [Arithmetic.LawfulOrder.lt_iff] at positive
  obtain ⟨nonneg, notZero⟩ := positive
  rw [nonneg_iff] at nonneg
  cases shape : value.toModel.unpack with
  | notANumber =>
    rw [shape] at nonneg
    exact nonneg.elim
  | zero sign =>
    refine absurd ?_ notZero
    rw [le_iff]
    refine ⟨?_, ne_nan_of_isFinite isFinite_zero, ?_⟩
    · rw [ne_eq, ← unpack_eq_notANumber_iff, shape]
      simp
    · -- either zero has the rank of zero
      rw [rank, shape]
      rfl
  | infinity sign =>
    rw [shape] at nonneg
    obtain rfl : sign = .positive := nonneg
    exact .inl rfl
  | finite sign significand exponent some =>
    rw [shape] at nonneg
    obtain rfl : sign = .positive := nonneg
    exact .inr ⟨significand, exponent, some, rfl⟩

theorem div_nonneg {left right : Float} (first : 0 ≤ left) (finite : left.isFinite = true)
    (second : 0 < right) : 0 ≤ left / right := by
  have finite : left.toModel.unpack.isFinite = true := finite
  rw [nonneg_iff] at first
  rw [nonneg_iff, unpack_div]
  refine NotNegative.repacked ?_
  rcases cases_of_pos second with infinite | ⟨significand', exponent', some', shape⟩
  · rw [infinite]
    cases shape : left.toModel.unpack with
    | notANumber | infinity =>
      rw [shape] at finite
      cases finite
    | zero | finite => trivial
  · rw [shape]
    cases shape : left.toModel.unpack with
    | notANumber | infinity =>
      rw [shape] at finite
      cases finite
    | zero => trivial
    | finite sign significand exponent some =>
      rw [shape] at first
      obtain rfl : sign = .positive := first
      exact notNegative_roundWithAccuracy _ _ _

/-! ## Sums -/

theorem normalize_ne_notANumber (significand exponent : Int) (zeroSign : Sign) :
    UnpackedFloat.normalize Format.binary64 significand exponent zeroSign ≠ .notANumber := by
  rw [UnpackedFloat.normalize]
  split
  · exact roundWithAccuracy_ne_notANumber _ _ _ _
  · simp
  · exact roundWithAccuracy_ne_notANumber _ _ _ _

theorem add_eq_nan {left right : Float} (sum : left + right = .nan) :
    left = .nan ∨ right = .nan ∨ left.isInf = true ∧ right.isInf = true := by
  rw [← unpack_eq_notANumber_iff, unpack_add, repacked_eq_notANumber_iff] at sum
  rw [← unpack_eq_notANumber_iff, ← unpack_eq_notANumber_iff]
  cases first : left.toModel.unpack with
  | notANumber => exact .inl rfl
  | infinity sign =>
    cases second : right.toModel.unpack with
    | notANumber => exact .inr (.inl rfl)
    | infinity sign' => exact .inr (.inr ⟨isInf_of_unpack first, isInf_of_unpack second⟩)
    | zero sign' | finite sign' =>
      rw [first, second] at sum
      cases sum
  | zero sign =>
    cases second : right.toModel.unpack with
    | notANumber => exact .inr (.inl rfl)
    | zero sign' =>
      rw [first, second, UnpackedFloat.add] at sum
      split at sum <;> cases sum
    | infinity sign' | finite sign' =>
      rw [first, second] at sum
      cases sum
  | finite sign significand exponent positive =>
    cases second : right.toModel.unpack with
    | notANumber => exact .inr (.inl rfl)
    | infinity sign' | zero sign' =>
      rw [first, second] at sum
      cases sum
    | finite sign' significand' exponent' positive' =>
      rw [first, second] at sum
      exact absurd sum (normalize_ne_notANumber _ _ _)

theorem add_ne_nan {left right : Float} (number : left ≠ .nan) (number' : right ≠ .nan)
    (finite : left.isFinite = true ∨ right.isFinite = true) : left + right ≠ .nan := by
  intro sum
  rcases add_eq_nan sum with nan | nan | ⟨infinite, infinite'⟩
  · exact number nan
  · exact number' nan
  · rcases finite with finite | finite
    · simp [isInf_of_isFinite finite] at infinite
    · simp [isInf_of_isFinite finite] at infinite'

theorem nan_add (value : Float) : .nan + value = .nan := rfl

theorem add_nan (value : Float) : value + .nan = .nan := by
  rw [← unpack_eq_notANumber_iff, unpack_add, repacked_eq_notANumber_iff]
  cases value.toModel.unpack <;> rfl

theorem normalize_of_pos {significand : Nat} (positive : 0 < significand) (exponent : Int)
    (zeroSign : Sign) :
    UnpackedFloat.normalize Format.binary64 significand exponent zeroSign =
      UnpackedFloat.round Format.binary64 .positive significand exponent := by
  have above : compare (significand : Int) 0 = .gt := compare_gt_iff_gt.mpr (by omega)
  rw [UnpackedFloat.normalize, above]
  rfl

/-- The exact sum on the finer grid of the two is rounded. -/
theorem add_finite {significand significand' : Nat} (positive : 0 < significand)
    (positive' : 0 < significand') (exponent exponent' : Int) :
    UnpackedFloat.add Format.binary64 (.finite .positive significand exponent positive)
        (.finite .positive significand' exponent' positive') =
      UnpackedFloat.round Format.binary64 .positive
        (significand * 2 ^ (exponent - min exponent exponent').toNat +
          significand' * 2 ^ (exponent' - min exponent exponent').toNat)
        (min exponent exponent') := by
  rw [← normalize_of_pos (by positivity) _ .positive, UnpackedFloat.add]
  simp only [decreaseExponent, Sign.apply, Nat.shiftLeft_eq, Nat.cast_add]

theorem le_rank_repacked {significand : Nat} {exponent : Int} (grid : OnGrid significand exponent)
    (positive : 0 < significand) {bound : Int} (below : bound ≤ place significand exponent)
    (small : bound ≤ infinityBits) :
    bound ≤ unpackedRank (repacked (.finite .positive significand exponent positive)) := by
  rcases le_or_gt exponent greatestExponent with fits | exceeds
  · rw [repacked_of_onGrid grid fits]
    exact below
  · rw [repacked_of_exceeding exceeds]
    exact small

theorem le_rank_add {left right : UnpackedFloat} (fits : Fits left) (fits' : Fits right)
    (first : NotNegative left) (second : NotNegative right) :
    unpackedRank left ≤ unpackedRank (repacked (UnpackedFloat.add Format.binary64 left right)) := by
  have infinite : unpackedRank (repacked (.infinity .positive)) = infinityBits :=
    congrArg unpackedRank (repacked_infinity .positive)
  cases left with
  | notANumber => exact first.elim
  | infinity sign =>
    obtain rfl : sign = .positive := first
    cases right with
    | notANumber => exact second.elim
    | infinity sign' =>
      obtain rfl : sign' = .positive := second
      exact infinite.ge
    | zero sign' | finite sign' => exact infinite.ge
  | zero sign =>
    cases right with
    | notANumber => exact second.elim
    | infinity sign' =>
      obtain rfl : sign' = .positive := second
      exact (Int.natCast_nonneg _).trans_eq infinite.symm
    | zero sign' => cases sign <;> cases sign' <;> decide
    | finite sign' significand' exponent' positive' =>
      obtain rfl : sign' = .positive := second
      exact le_rank_repacked fits'.1 positive' (place_pos fits'.1 positive').le
        (Int.natCast_nonneg _)
  | finite sign significand exponent positive =>
    obtain rfl : sign = .positive := first
    have small := (place_lt_infinity fits.1 fits.2).le
    cases right with
    | notANumber => exact second.elim
    | infinity sign' =>
      obtain rfl : sign' = .positive := second
      exact small.trans_eq infinite.symm
    | zero sign' => exact le_rank_repacked fits.1 positive le_rfl small
    | finite sign' significand' exponent' positive' =>
      obtain rfl : sign' = .positive := second
      -- on the finer grid the left addend is at most the exact sum, and rounding keeps it so
      have finer : exponent = min exponent exponent' + (exponent - min exponent exponent').toNat := by
        omega
      obtain ⟨rounded, roundedExponent, some, same, grid, above⟩ :=
        place_le_round fits.1 (by positivity) (le_min fits.1.least fits'.1.least) finer
          (Nat.le_add_right _ (significand' * 2 ^ (exponent' - min exponent exponent').toNat))
          .positive
      rw [add_finite, same]
      exact le_rank_repacked grid some above small

theorem infinity_of_nonneg {value : Float} (nonneg : 0 ≤ value) (infinite : value.isInf = true) :
    value.toModel.unpack = .infinity .positive := by
  have infinite : value.toModel.unpack.isInf = true := infinite
  rw [nonneg_iff] at nonneg
  cases shape : value.toModel.unpack with
  | notANumber | zero | finite =>
    rw [shape] at infinite
    cases infinite
  | infinity sign =>
    rw [shape] at nonneg
    exact congrArg _ nonneg

theorem le_add {left right : Float} (first : 0 ≤ left) (second : 0 ≤ right) :
    left ≤ left + right := by
  have atLeast := le_rank_add (fits_unpack left) (fits_unpack right) (nonneg_iff.mp first)
    (nonneg_iff.mp second)
  refine le_iff.mpr ⟨ne_nan_of_nonneg first, fun sum => ?_, atLeast⟩
  rcases add_eq_nan sum with notNumber | notNumber | ⟨infinite, infinite'⟩
  · exact ne_nan_of_nonneg first notNumber
  · exact ne_nan_of_nonneg second notNumber
  · -- both are positive infinity
    rw [← unpack_eq_notANumber_iff, unpack_add, infinity_of_nonneg first infinite,
      infinity_of_nonneg second infinite'] at sum
    cases (repacked_infinity .positive).symm.trans sum

end Sequencer.Number
