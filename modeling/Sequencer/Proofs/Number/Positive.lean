import Sequencer.Proofs.Number.Exact
import Sequencer.Proofs.Number.Operations

/-! # What a positive double stands for

A finite double that is positive as a double stands for a positive number.
-/

namespace Sequencer.Number

open Float.Model Float.Model.UnpackedFloat

theorem toNat_unpackSign (bits : BitVec 64) :
    (@unpackSign Format.binary64 bits).toNat = bits.toNat / 2 ^ 63 := by
  have bound : bits.toNat < 2 ^ 64 := bits.isLt
  have single : bits.toNat / 2 ^ 63 % 2 = bits.toNat / 2 ^ 63 := by omega
  simpa [unpackSign, Nat.shiftRight_eq_div_pow] using single

theorem ofBitVec_eq_positive_iff {sign : BitVec 1} :
    Sign.ofBitVec sign = .positive ↔ sign.toNat = 0 := by
  have zero : sign.toNat = 0 ↔ sign = 0#1 := (BitVec.toNat_inj (y := 0#1))
  rw [Sign.ofBitVec, zero]
  split <;> simp [*]

/-- The sign of a double is its first bit. -/
theorem isNegative_of_unpack {value : Float} {significand : Nat} {exponent : Int} {some}
    (shape : value.toModel.unpack = .finite .positive significand exponent some) :
    isNegative value = false := by
  have shape : UnpackedFloat.unpack Format.binary64 value.toBits.toBitVec = _ := shape
  have sign : (@unpackSign Format.binary64 value.toBits.toBitVec).toNat = 0 := by
    rw [UnpackedFloat.unpack] at shape
    split at shape
    · split at shape <;> cases shape
    · split at shape
      · split at shape
        · cases shape
        · injection shape with sign
          exact ofBitVec_eq_positive_iff.mp sign
      · injection shape with sign
        exact ofBitVec_eq_positive_iff.mp sign
  rw [toNat_unpackSign] at sign
  have bits : value.toBits.toNat / 2 ^ 63 = 0 := sign
  rw [isNegative, decide_eq_false_iff_not, signBit]
  omega

theorem exact_pos {value : Float} (finite : value.isFinite = true) (positive : 0 < value) :
    0 < exact value := by
  have notNegative : isNegative value = false := by
    rcases cases_of_pos positive with infinite | ⟨significand, exponent, some, shape⟩
    · have finite : value.toModel.unpack.isFinite = true := finite
      rw [infinite] at finite
      cases finite
    · exact isNegative_of_unpack shape
  obtain ⟨significand, exponent, shape, -, -, normal, size⟩ := shape_of_finite finite
  have notZero : significand ≠ 0 := by
    rintro rfl
    have least : exponent = leastExponent := normal.resolve_left (by decide)
    have zero : value = 0 := by
      rw [← signed_magnitude value, notNegative, size, least]
      rfl
    rw [zero] at positive
    exact absurd positive (by decide +kernel)
  rw [exact, shape, notNegative]
  dsimp only
  rw [if_neg (by decide), one_mul]
  positivity

end Sequencer.Number
