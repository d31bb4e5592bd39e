import Sequencer.Proofs.Number.Rounding

/-! # Packing

What an operation on doubles gives is packed into bits. Packing keeps the sign, and keeps a double on
the grid as it is, unless it is too large for one. What is not negative can be told from the sign.
-/

namespace Sequencer.Number

open Float.Model Float.Model.UnpackedFloat

/-! ## Signs of what is packed -/

/-- A result as it is read back after it has been packed. -/
def repacked (unpacked : UnpackedFloat) : UnpackedFloat :=
  UnpackedFloat.unpack Format.binary64 (UnpackedFloat.pack Format.binary64 unpacked)

theorem repacked_infinity (sign : Sign) : repacked (.infinity sign) = .infinity sign := by
  cases sign <;> rfl

theorem repacked_zero (sign : Sign) : repacked (.zero sign) = .zero sign := by
  cases sign <;> rfl

def signOf : UnpackedFloat → Option Sign
  | .finite sign _ _ _ | .infinity sign | .zero sign => some sign
  | .notANumber => none

theorem signOf_eq_none_iff {unpacked : UnpackedFloat} :
    signOf unpacked = none ↔ unpacked = .notANumber := by
  cases unpacked <;> simp [signOf]

theorem ofBitVec_toBitVec (sign : Sign) : Sign.ofBitVec sign.toBitVec = sign := by
  cases sign <;> rfl

section Fields

variable (sign : Sign) (exponent : BitVec 11) (mantissa : BitVec 52)

theorem signOf_unpack_packComponents (most : exponent.toNat < 2047) :
    signOf (UnpackedFloat.unpack Format.binary64
      (packComponents Format.binary64 sign exponent mantissa)) = some sign := by
  have notAllOnes : exponent ≠ -1#11 := by
    rintro rfl
    exact absurd most (by decide)
  have own : Sign.ofBitVec (@unpackSign Format.binary64
      (packComponents Format.binary64 sign exponent mantissa)) = sign := by
    rw [unpackSign_packComponents]
    exact ofBitVec_toBitVec sign
  rw [UnpackedFloat.unpack]
  split
  · next allOnes =>
    rw [unpackExponent_packComponents] at allOnes
    exact absurd allOnes notAllOnes
  · split
    · split <;> exact congrArg some own
    · exact congrArg some own

end Fields

theorem signOf_repacked (unpacked : UnpackedFloat) :
    signOf (repacked unpacked) = signOf unpacked := by
  cases unpacked with
  | notANumber => rfl
  | infinity sign => rw [repacked_infinity]
  | zero sign => rw [repacked_zero]
  | finite sign significand exponent positive =>
    rw [repacked, UnpackedFloat.pack]
    dsimp only
    split
    · change signOf (repacked (.infinity sign)) = _
      rw [repacked_infinity]
      rfl
    · next fits =>
      split
      · refine signOf_unpack_packComponents sign _ _ ?_
        rw [BitVec.toNat_ofNat]
        omega
      · exact signOf_unpack_packComponents sign _ _ (by decide)

theorem repacked_eq_notANumber_iff {unpacked : UnpackedFloat} :
    repacked unpacked = .notANumber ↔ unpacked = .notANumber := by
  rw [← signOf_eq_none_iff, signOf_repacked, signOf_eq_none_iff]

/-! ## Doubles on the grid -/

theorem log2_lt_of_subnormal {mantissa : Nat} (positive : 0 < mantissa) (small : mantissa < 2 ^ 52) :
    mantissa.log2 < 52 :=
  (Nat.log2_lt (Nat.ne_of_gt positive)).mpr small

theorem log2_of_normal {mantissa : Nat} (small : mantissa < 2 ^ 52) :
    (2 ^ 52 + mantissa).log2 = 52 := by
  rw [Nat.log2_eq_iff (by omega)]
  omega

theorem pack_subnormal (sign : Sign) (mantissa : BitVec 52) (positive : 0 < mantissa.toNat) :
    UnpackedFloat.pack Format.binary64 (.finite sign mantissa.toNat (-1074) positive) =
      packComponents Format.binary64 sign 0#11 mantissa := by
  have size := log2_lt_of_subnormal positive mantissa.isLt
  have exponent : ((-1074 : Int) + Format.binary64.exponentBias +
      Format.binary64.mantissaBitsWithoutImplicit).toNat = 1 := by decide
  have width : Format.binary64.mantissaBits = 53 := rfl
  rw [UnpackedFloat.pack]
  simp only [exponent]
  -- below the leading bit the exponent field stays empty
  rw [if_neg (by decide), if_neg (by omega)]
  simp

theorem pack_normal (sign : Sign) (exponent : BitVec 11) (mantissa : BitVec 52)
    (least : 0 < exponent.toNat) (most : exponent.toNat < 2047)
    (positive : 0 < 2 ^ 52 + mantissa.toNat) :
    UnpackedFloat.pack Format.binary64
        (.finite sign (2 ^ 52 + mantissa.toNat) (exponent.toNat - 1075) positive) =
      packComponents Format.binary64 sign exponent mantissa := by
  have size := log2_of_normal mantissa.isLt
  have bias : (Format.binary64.exponentBias : Int) = 1023 := rfl
  have fraction : (Format.binary64.mantissaBitsWithoutImplicit : Int) = 52 := rfl
  have biased : ((exponent.toNat : Int) - 1075 + Format.binary64.exponentBias +
      Format.binary64.mantissaBitsWithoutImplicit).toNat = exponent.toNat := by
    rw [bias, fraction]; omega
  have width : Format.binary64.mantissaBits = 53 := rfl
  -- the leading bit is not stored
  have low : BitVec.ofNat 52 (2 ^ 52 + mantissa.toNat) = mantissa := by
    apply BitVec.eq_of_toNat_eq
    rw [BitVec.toNat_ofNat]
    omega
  rw [UnpackedFloat.pack]
  simp only [biased]
  have fits : ¬ 2 ^ Format.binary64.exponentBits ≤ exponent.toNat + 1 := by
    change ¬ 2048 ≤ _
    omega
  rw [if_neg fits, if_pos (by omega), low, BitVec.ofNat_toNat, BitVec.setWidth_eq]

theorem finite_congr {sign : Sign} {mantissa mantissa' : Nat} {exponent exponent' : Int}
    (mantissas : mantissa = mantissa') (exponents : exponent = exponent') (positive : 0 < mantissa) :
    UnpackedFloat.finite sign mantissa exponent positive =
      .finite sign mantissa' exponent' (mantissas ▸ positive) := by
  subst mantissas exponents
  rfl

theorem unpack_packComponents_normal (sign : Sign) (exponent : BitVec 11) (mantissa : BitVec 52)
    (least : 0 < exponent.toNat) (most : exponent.toNat < 2047)
    (positive : 0 < 2 ^ 52 + mantissa.toNat) :
    UnpackedFloat.unpack Format.binary64 (packComponents Format.binary64 sign exponent mantissa) =
      .finite sign (2 ^ 52 + mantissa.toNat) (exponent.toNat - 1075) positive := by
  have notAllOnes : exponent ≠ -1#11 := by
    rintro rfl
    exact absurd most (by decide)
  have someExponent : exponent ≠ 0#11 := by
    rintro rfl
    exact absurd least (by decide)
  rw [UnpackedFloat.unpack]
  simp only [unpackExponent_packComponents, unpackSign_packComponents, unpackMantissa_packComponents]
  rw [if_neg notAllOnes, if_neg someExponent, ofBitVec_toBitVec]
  exact finite_congr (toNat_leading_append mantissa) rfl _

theorem unpack_packComponents_subnormal (sign : Sign) (mantissa : BitVec 52)
    (positive : 0 < mantissa.toNat) :
    UnpackedFloat.unpack Format.binary64 (packComponents Format.binary64 sign 0#11 mantissa) =
      .finite sign mantissa.toNat (-1074) positive := by
  have someMantissa : mantissa ≠ 0#52 := by
    rintro rfl
    exact absurd positive (by decide)
  rw [UnpackedFloat.unpack]
  simp only [unpackExponent_packComponents, unpackSign_packComponents, unpackMantissa_packComponents]
  rw [if_neg (by decide), if_pos trivial, dif_neg someMantissa, ofBitVec_toBitVec]
  rfl

/-- A double on the grid is read back as it was packed. -/
theorem repacked_of_onGrid {significand : Nat} {exponent : Int} (grid : OnGrid significand exponent)
    (most : exponent ≤ greatestExponent) (sign : Sign) (positive : 0 < significand) :
    repacked (.finite sign significand exponent positive) =
      .finite sign significand exponent positive := by
  obtain ⟨small, least, normal⟩ := grid
  simp only [leadingBit, leastExponent, greatestExponent] at small least normal most
  rw [repacked]
  by_cases leading : 2 ^ 52 ≤ significand
  · obtain ⟨mantissa, rfl⟩ := Nat.exists_eq_add_of_le leading
    obtain ⟨field, rfl⟩ : ∃ field : Nat, exponent = field - 1075 :=
      ⟨(exponent + 1075).toNat, by omega⟩
    have mantissas : (BitVec.ofNat 52 mantissa).toNat = mantissa := by
      rw [BitVec.toNat_ofNat]
      omega
    have fields : (BitVec.ofNat 11 field).toNat = field := by
      rw [BitVec.toNat_ofNat]
      omega
    have packed := pack_normal sign (BitVec.ofNat 11 field) (BitVec.ofNat 52 mantissa)
      (by omega) (by omega) (by omega)
    have read := unpack_packComponents_normal sign (BitVec.ofNat 11 field) (BitVec.ofNat 52 mantissa)
      (by omega) (by omega) (by omega)
    rw [← packed] at read
    simpa only [mantissas, fields] using read
  · obtain rfl : exponent = -1074 := by omega
    have mantissas : (BitVec.ofNat 52 significand).toNat = significand := by
      rw [BitVec.toNat_ofNat]
      omega
    have packed := pack_subnormal sign (BitVec.ofNat 52 significand) (by omega)
    have read := unpack_packComponents_subnormal sign (BitVec.ofNat 52 significand) (by omega)
    rw [← packed] at read
    simpa only [mantissas] using read

theorem repacked_of_exceeding {significand : Nat} {exponent : Int}
    (exceeding : greatestExponent < exponent) (sign : Sign) (positive : 0 < significand) :
    repacked (.finite sign significand exponent positive) = .infinity sign := by
  have bias : (Format.binary64.exponentBias : Int) = 1023 := rfl
  have fraction : (Format.binary64.mantissaBitsWithoutImplicit : Int) = 52 := rfl
  have width : Format.binary64.exponentBits = 11 := rfl
  rw [repacked, UnpackedFloat.pack]
  dsimp only
  rw [if_pos]
  · exact repacked_infinity sign
  · rw [greatestExponent] at exceeding
    omega

/-! ## Numbers and infinities -/

theorem eq_zero_of_unpack {value : Float} {sign : Sign} (zero : value.toModel.unpack = .zero sign) :
    (value == 0) = true := by
  change (value.toModel.unpack.compare (.zero .positive) == some .eq) = true
  rw [zero]
  rfl

theorem isInf_of_unpack {value : Float} {sign : Sign}
    (infinite : value.toModel.unpack = .infinity sign) : value.isInf = true := by
  change value.toModel.unpack.isInf = true
  rw [infinite]
  rfl

theorem ne_nan_of_isFinite {value : Float} (finite : value.isFinite = true) : value ≠ .nan := by
  rintro rfl
  cases finite

theorem isInf_of_isFinite {value : Float} (finite : value.isFinite = true) : value.isInf = false := by
  have finite : value.toModel.unpack.isFinite = true := finite
  change value.toModel.unpack.isInf = false
  cases shape : value.toModel.unpack with
  | infinity | notANumber =>
    rw [shape] at finite
    cases finite
  | zero | finite => rfl

/-! ## Signs -/

/-- What is at least zero: every zero, and what is positive. -/
def NotNegative : UnpackedFloat → Prop
  | .zero _ => True
  | .finite sign _ _ _ | .infinity sign => sign = .positive
  | .notANumber => False

theorem notNegative_of_signOf {unpacked : UnpackedFloat}
    (positive : signOf unpacked = some .positive) : NotNegative unpacked := by
  cases unpacked with
  | notANumber => cases positive
  | zero sign => trivial
  | finite sign | infinity sign => exact Option.some.inj positive

theorem NotNegative.repacked {unpacked : UnpackedFloat} (notNegative : NotNegative unpacked) :
    NotNegative (repacked unpacked) := by
  cases unpacked with
  | notANumber => exact notNegative.elim
  | zero sign =>
    rw [repacked_zero]
    trivial
  | finite sign | infinity sign =>
    refine notNegative_of_signOf ?_
    rw [signOf_repacked]
    exact congrArg some notNegative

theorem rank_zero : rank 0 = 0 := rfl

theorem nonneg_iff {value : Float} : 0 ≤ value ↔ NotNegative value.toModel.unpack := by
  have number : (0 : Float) ≠ .nan := ne_nan_of_isFinite isFinite_zero
  have fits := fits_unpack value
  rw [le_iff, and_iff_right number, rank_zero, rank, ne_eq, ← unpack_eq_notANumber_iff]
  generalize value.toModel.unpack = unpacked at fits
  cases unpacked with
  | notANumber => simp [NotNegative]
  | zero sign => simp [NotNegative, unpackedRank]
  | infinity sign => cases sign <;> simp [NotNegative, unpackedRank, Sign.apply, infinityBits]
  | finite sign significand exponent positive =>
    have least := place_pos fits.1 positive
    cases sign
    · simp [NotNegative, unpackedRank, Sign.apply, least]
    · simp [NotNegative, unpackedRank, Sign.apply, least.le]

theorem ne_nan_of_nonneg {value : Float} (nonneg : 0 ≤ value) : value ≠ .nan :=
  (le_iff.mp nonneg).2.1

theorem zero_nonneg : (0 : Float) ≤ 0 := by decide +kernel

end Sequencer.Number
