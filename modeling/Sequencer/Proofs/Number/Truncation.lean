import Sequencer.Proofs.Number.Positive

/-! # The whole part of a double

A positive double is cut off to the whole number below it, as far as sixty-four bits go:
`wholePart_eq`.
-/

namespace Sequencer.Number

open Float.Model Float.Model.UnpackedFloat

/-! ## Significands and exponents -/

theorem toNat_unpackMantissa (bits : BitVec 64) :
    (@unpackMantissa Format.binary64 bits).toNat = bits.toNat % 2 ^ 52 := by
  simp [unpackMantissa]

/-- The shape of a finite double has the significand and the exponent that it is computed with. -/
theorem shape_of_unpack {value : Float} {sign : Sign} {significand : Nat} {exponent : Int} {some}
    (unpacked : value.toModel.unpack = .finite sign significand exponent some) :
    shape value = .finite (isNegative value) significand exponent := by
  have unpacked : UnpackedFloat.unpack Format.binary64 value.toBits.toBitVec = _ := unpacked
  have field := toNat_unpackExponent value.toBits.toBitVec
  have fraction := toNat_unpackMantissa value.toBits.toBitVec
  rw [UnpackedFloat.unpack] at unpacked
  generalize @unpackExponent Format.binary64 value.toBits.toBitVec = exponentBits at *
  change exponentBits.toNat = value.toBits.toNat / leadingBit % 2048 at field
  change _ = value.toBits.toNat % leadingBit at fraction
  rw [shape, shapeOfBits, ← field, ← fraction]
  split at unpacked
  · split at unpacked <;> cases unpacked
  · next notAllOnes =>
    split at unpacked
    · next zero =>
      split at unpacked
      · cases unpacked
      · injection unpacked with _ same place
        rw [if_pos (by rw [zero]; rfl), ← same, ← place, zero]
        rfl
    · next notZero =>
      injection unpacked with _ same place
      have positive : exponentBits.toNat ≠ 0 := fun zero => notZero (BitVec.eq_of_toNat_eq zero)
      have bounded : exponentBits.toNat < 2 ^ 11 := exponentBits.isLt
      have most : exponentBits.toNat ≠ 2047 := fun ones => notAllOnes (BitVec.eq_of_toNat_eq ones)
      rw [if_neg positive, if_pos (by omega), ← same, ← place, toNat_leading_append, Nat.add_comm]
      have grid : leastExponent + exponentBits.toNat - 1 = exponentBits.toNat -
          ((Format.binary64.exponentBias : Int) + Format.binary64.mantissaBitsWithoutImplicit) := by
        change -1074 + (exponentBits.toNat : Int) - 1 = exponentBits.toNat - 1075
        omega
      rw [grid]
      rfl

theorem floor_exact {value : Float} {significand : Nat} {exponent : Int} {some}
    (unpacked : value.toModel.unpack = .finite .positive significand exponent some) :
    ⌊exact value⌋₊ = wholeOn 0 significand exponent := by
  rw [exact, shape_of_unpack unpacked, isNegative_of_unpack unpacked]
  dsimp only
  rw [if_neg (by decide), one_mul]
  rcases wholeOn_cases 0 significand exponent with ⟨count, rfl, whole⟩ | ⟨count, place, whole⟩
  · rw [whole, zero_add, zpow_natCast, ← Nat.cast_ofNat (R := ℚ), ← Nat.cast_pow, ← Nat.cast_mul,
      Nat.floor_natCast]
  · obtain rfl : exponent = -count := by omega
    rw [whole, zpow_neg, zpow_natCast, ← div_eq_mul_inv, ← Nat.cast_ofNat (R := ℚ), ← Nat.cast_pow,
      Nat.floor_div_eq_div]

theorem toInt_positive (least most : Int) (significand : Nat) (exponent : Int) (some) :
    UnpackedFloat.toInt least most (.finite .positive significand exponent some) =
      wholeOn 0 significand exponent := by
  have places : (0 - (exponent - ((exponent - 0).toNat : Int))).toNat = (0 - exponent).toNat := by
    omega
  change ((ExtendedMantissa.ofMantissaAndAccuracy (significand <<< (exponent - 0).toNat) .exact >>>
    (0 - (exponent - ((exponent - 0).toNat : Int))).toNat).mantissa : Int) = _
  rw [mantissa_shiftRight, places, ExtendedMantissa.ofMantissaAndAccuracy, Nat.shiftLeft_eq,
    wholeOn]

theorem wholePart_eq {value : Float} (finite : value.isFinite = true) (positive : 0 < value) :
    Arithmetic.wholePart value = min ⌊exact value⌋₊ (2 ^ 64 - 1) := by
  rcases cases_of_pos positive with infinite | ⟨significand, exponent, some, unpacked⟩
  · have finite : value.toModel.unpack.isFinite = true := finite
    rw [infinite] at finite
    cases finite
  · change (UInt64.ofNatClamp (value.toModel.unpack.toInt 0 (UInt64.size - 1)).toNat).toNat = _
    rw [floor_exact unpacked, unpacked, toInt_positive, Int.toNat_natCast, UInt64.ofNatClamp]
    have size : UInt64.size = 2 ^ 64 := rfl
    split
    · rw [UInt64.toNat_ofNatLT]
      omega
    · rw [UInt64.toNat_ofNatLT]
      omega

end Sequencer.Number
