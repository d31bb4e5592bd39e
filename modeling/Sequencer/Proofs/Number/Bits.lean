import Mathlib
import Sequencer.Arithmetic
import Sequencer.Number.Double

/-! # The bits of a double

A double is its bits, up to the many ways of writing not-a-number. On finite doubles `shape` is read
off the three fields, `signed` puts sign and magnitude together again, and comparison is reflexive.
Zero is neutral for addition on every double but the negative zero, which one addition of zero makes
positive: `add_zero_add_zero`.
-/

namespace Sequencer.Number

open Float.Model Float.Model.UnpackedFloat

/-! ## Fields -/

theorem toNat_unpackExponent (bits : BitVec 64) :
    (@unpackExponent Format.binary64 bits).toNat = bits.toNat / 2 ^ 52 % 2 ^ 11 := by
  simp [unpackExponent, Nat.shiftRight_eq_div_pow]

theorem toNat_leading_append (mantissa : BitVec 52) :
    (1#1 ++ mantissa).toNat = 2 ^ 52 + mantissa.toNat := by
  rw [BitVec.toNat_append, ← Nat.shiftLeft_add_eq_or_of_lt mantissa.isLt]
  rfl

theorem pack_unpack_model (model : Float.Model) : Float.Model.pack model.unpack = model := by
  obtain ⟨bits, valid⟩ := model
  simp only [Float.Model.pack, Float.Model.unpack, pack_unpack_of_valid valid]

/-! ## Finite doubles -/

theorem isFinite_zero : (0 : Float).isFinite = true := by decide +kernel

theorem isFinite_one : (1 : Float).isFinite = true := by decide +kernel

/-- The bits of a double without its sign. -/
def magnitude (value : Float) : Nat := value.toBits.toNat % signBit

def isNegative (value : Float) : Bool := signBit ≤ value.toBits.toNat

theorem toBits_eq (value : Float) :
    value.toBits.toNat = magnitude value + if isNegative value then signBit else 0 := by
  have bound : value.toBits.toNat < 2 ^ 64 := value.toBits.toNat_lt
  rw [magnitude, isNegative]
  by_cases negative : signBit ≤ value.toBits.toNat
  · rw [if_pos (decide_eq_true negative)]
    simp only [signBit] at *
    omega
  · rw [if_neg (by simpa using negative)]
    simp only [signBit] at *
    omega

theorem signed_magnitude (value : Float) : signed (isNegative value) (magnitude value) = value := by
  rw [signed, ← toBits_eq]
  exact (congrArg Float.ofBits (UInt64.ofNat_toNat)).trans (Float.ofBits_toBits value)

theorem isFinite_unpack (bits : BitVec 64) :
    (UnpackedFloat.unpack Format.binary64 bits).isFinite =
      decide (bits.toNat / 2 ^ 52 % 2 ^ 11 ≠ 2047) := by
  rw [← toNat_unpackExponent, UnpackedFloat.unpack]
  split
  · next allOnes =>
    rw [allOnes]
    split <;> rfl
  · next notAllOnes =>
    have most : (@unpackExponent Format.binary64 bits).toNat ≠ 2047 :=
      fun ones => notAllOnes (BitVec.eq_of_toNat_eq ones)
    rw [decide_eq_true most]
    split
    · split <;> rfl
    · rfl

theorem isFinite_iff (value : Float) : value.isFinite = true ↔ magnitude value < infinityBits := by
  have bound : value.toBits.toNat < 2 ^ 64 := value.toBits.toNat_lt
  have fields : value.isFinite = decide (value.toBits.toNat / 2 ^ 52 % 2 ^ 11 ≠ 2047) :=
    isFinite_unpack value.toBits.toBitVec
  rw [fields, decide_eq_true_eq]
  simp only [magnitude, signBit, infinityBits]
  omega

/-- A finite double is a significand on the grid of its exponent. -/
theorem shape_of_finite {value : Float} (finite : value.isFinite = true) :
    ∃ significand exponent, shape value = .finite (isNegative value) significand exponent ∧
      significand < 2 ^ 53 ∧ leastExponent ≤ exponent ∧
      (2 ^ 52 ≤ significand ∨ exponent = leastExponent) ∧
      magnitude value = significand + (exponent - leastExponent).toNat * leadingBit := by
  have bound := (isFinite_iff value).mp finite
  have small : value.toBits.toNat < 2 ^ 64 := value.toBits.toNat_lt
  simp only [magnitude, signBit, infinityBits] at bound
  rw [shape, shapeOfBits, magnitude]
  have sign : value.toBits.toNat / leadingBit / 2048 = value.toBits.toNat / signBit :=
    Nat.div_div_eq_div_mul _ _ _
  have fraction : value.toBits.toNat % leadingBit < leadingBit := Nat.mod_lt _ (by decide)
  simp only [leadingBit, signBit] at sign fraction
  by_cases subnormal : value.toBits.toNat / leadingBit % 2048 = 0
  · rw [if_pos subnormal]
    simp only [leadingBit] at subnormal
    -- the finest grid, on which the leading bit is missing
    refine ⟨_, _, rfl, ?_, Int.le_refl _, .inr rfl, ?_⟩
    · simp only [leadingBit]
      omega
    · simp only [leadingBit, signBit, Int.sub_self, Int.toNat_zero]
      omega
  · have normal : value.toBits.toNat / leadingBit % 2048 < 2047 := by
      simp only [leadingBit]
      omega
    rw [if_neg subnormal, if_pos normal]
    simp only [leadingBit] at subnormal
    refine ⟨_, _, rfl, ?_, ?_, .inl ?_, ?_⟩
    all_goals simp only [leadingBit, leastExponent, signBit]; omega

/-! ## Comparison and addition -/

theorem compare_self {unpacked : UnpackedFloat} (finite : unpacked.isFinite = true) :
    unpacked.compare unpacked = some .eq := by
  cases unpacked with
  | notANumber | infinity => simp [UnpackedFloat.isFinite] at finite
  | zero => rfl
  | finite sign => cases sign <;> simp [UnpackedFloat.compare]

theorem beq_self_of_finite {value : Float} (finite : value.isFinite = true) :
    (value == value) = true := by
  change (value.toModel.unpack.compare value.toModel.unpack == some .eq) = true
  rw [compare_self finite]
  rfl

/-- Only the negative zero is not itself after zero has been added. -/
theorem add_positive_zero (unpacked : UnpackedFloat) :
    UnpackedFloat.add Format.binary64 unpacked (.zero .positive) = unpacked ∨
      UnpackedFloat.add Format.binary64 unpacked (.zero .positive) = .zero .positive := by
  cases unpacked with
  | notANumber | infinity | finite => exact .inl rfl
  | zero sign => cases sign <;> exact .inr rfl

theorem add_zero_eq (value : Float) : value + 0 = value ∨ value + 0 = 0 := by
  have sum : value + 0 = .ofModel (.pack (UnpackedFloat.add Format.binary64 value.toModel.unpack
      (.zero .positive))) := rfl
  rw [sum]
  rcases add_positive_zero value.toModel.unpack with same | zero
  · rw [same, pack_unpack_model]
    exact .inl rfl
  · rw [zero]
    exact .inr rfl

theorem add_zero_add_zero (value : Float) : value + 0 + 0 = value + 0 := by
  rcases add_zero_eq value with same | zero
  · rw [same, same]
  · rw [zero]
    rfl

end Sequencer.Number
