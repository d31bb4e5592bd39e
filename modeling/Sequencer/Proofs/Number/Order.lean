import Sequencer.Proofs.Number.Bits

/-! # The order of doubles

Doubles other than not-a-number lie in a row, and each has a rank in it, counted from zero in steps
of one double: `le_iff` and `lt_iff` compare by rank. What is not a number is not compared.
-/

namespace Sequencer

namespace Number

open Float.Model Float.Model.UnpackedFloat

/-! ## Ranks -/

/-- A significand and an exponent as doubles have them, but for the size of the exponent. -/
structure OnGrid (significand : Nat) (exponent : Int) : Prop where
  small : significand < 2 * leadingBit
  least : leastExponent ≤ exponent
  normal : leadingBit ≤ significand ∨ exponent = leastExponent

/-- How many doubles there are from zero up to a positive one. -/
def place (significand : Nat) (exponent : Int) : Int :=
  significand + (exponent - leastExponent) * leadingBit

/-- Beyond this exponent there is only infinity. -/
def greatestExponent : Int := 971

/-- What the bits of a double can stand for. -/
def Fits : UnpackedFloat → Prop
  | .finite _ significand exponent _ =>
    OnGrid significand exponent ∧ exponent ≤ greatestExponent
  | .infinity _ | .zero _ | .notANumber => True

def unpackedRank : UnpackedFloat → Int
  | .finite sign significand exponent _ => sign.apply (place significand exponent)
  | .infinity sign => sign.apply infinityBits
  | .zero _ | .notANumber => 0

def rank (value : Float) : Int := unpackedRank value.toModel.unpack

theorem place_pos {significand : Nat} {exponent : Int} (grid : OnGrid significand exponent)
    (positive : 0 < significand) : 0 < place significand exponent := by
  have least := grid.least
  simp only [place, leadingBit] at *
  omega

theorem place_lt_infinity {significand : Nat} {exponent : Int} (grid : OnGrid significand exponent)
    (most : exponent ≤ greatestExponent) : place significand exponent < infinityBits := by
  have small := grid.small
  simp only [place, leadingBit, infinityBits, leastExponent, greatestExponent] at *
  omega

theorem place_lt_of_exponent {significand significand' : Nat} {exponent exponent' : Int}
    (grid : OnGrid significand exponent) (grid' : OnGrid significand' exponent')
    (below : exponent < exponent') : place significand exponent < place significand' exponent' := by
  have small := grid.small
  have least := grid.least
  have normal := grid'.normal
  simp only [place, leadingBit, leastExponent] at *
  omega

theorem compare_place {significand significand' : Nat} {exponent exponent' : Int}
    (grid : OnGrid significand exponent) (grid' : OnGrid significand' exponent') :
    (compare exponent exponent').then (compare significand significand') =
      compare (place significand exponent) (place significand' exponent') := by
  rcases lt_trichotomy exponent exponent' with below | rfl | above
  · rw [compare_lt_iff_lt.mpr below, compare_lt_iff_lt.mpr (place_lt_of_exponent grid grid' below)]
    rfl
  · rw [compare_eq_iff_eq.mpr rfl]
    simp [place, compare, compareOfLessAndEq]
  · rw [compare_gt_iff_gt.mpr above, compare_gt_iff_gt.mpr (place_lt_of_exponent grid' grid above)]
    rfl

/-! ## Comparing -/

theorem compare_swap_neg (first second : Int) :
    (compare first second).swap = compare (-first) (-second) := by
  rw [← Std.OrientedOrd.eq_swap]
  rcases lt_trichotomy first second with less | rfl | more
  · rw [compare_gt_iff_gt.mpr less, compare_gt_iff_gt.mpr (neg_lt_neg less)]
  · rw [compare_eq_iff_eq.mpr rfl, compare_eq_iff_eq.mpr rfl]
  · rw [compare_lt_iff_lt.mpr more, compare_lt_iff_lt.mpr (neg_lt_neg more)]

theorem compare_unpackedRank {left right : UnpackedFloat} (fits : Fits left) (fits' : Fits right)
    (number : left ≠ .notANumber) (number' : right ≠ .notANumber) :
    left.compare right = some (compare (unpackedRank left) (unpackedRank right)) := by
  have infinite : (0 : Int) < infinityBits := by decide
  have below : ∀ {first second : Int}, first < second →
      some Ordering.lt = some (compare first second) := fun less =>
    congrArg some (compare_lt_iff_lt.mpr less).symm
  have above : ∀ {first second : Int}, second < first →
      some Ordering.gt = some (compare first second) := fun more =>
    congrArg some (compare_gt_iff_gt.mpr more).symm
  cases left with
  | notANumber => exact absurd rfl number
  | infinity sign =>
    cases right with
    | notANumber => exact absurd rfl number'
    | infinity sign' => cases sign <;> cases sign' <;> rfl
    | zero sign' =>
      cases sign
      · exact below (by simp only [unpackedRank, Sign.apply]; omega)
      · exact above infinite
    | finite sign' significand exponent positive =>
      -- finite doubles lie strictly between the infinities
      have least := place_pos fits'.1 positive
      have most := place_lt_infinity fits'.1 fits'.2
      cases sign
      · refine below ?_
        cases sign' <;> simp only [unpackedRank, Sign.apply] <;> omega
      · refine above ?_
        cases sign' <;> simp only [unpackedRank, Sign.apply] <;> omega
  | zero sign =>
    cases right with
    | notANumber => exact absurd rfl number'
    | infinity sign' =>
      cases sign'
      · exact above (by simp only [unpackedRank, Sign.apply]; omega)
      · exact below infinite
    | zero sign' => rfl
    | finite sign' significand exponent positive =>
      have least := place_pos fits'.1 positive
      cases sign'
      · exact above (by simp only [unpackedRank, Sign.apply]; omega)
      · exact below least
  | finite sign significand exponent positive =>
    have least := place_pos fits.1 positive
    have most := place_lt_infinity fits.1 fits.2
    cases right with
    | notANumber => exact absurd rfl number'
    | infinity sign' =>
      cases sign'
      · refine above ?_
        cases sign <;> simp only [unpackedRank, Sign.apply] <;> omega
      · refine below ?_
        cases sign <;> simp only [unpackedRank, Sign.apply] <;> omega
    | zero sign' =>
      cases sign
      · exact below (by simp only [unpackedRank, Sign.apply]; omega)
      · exact above least
    | finite sign' significand' exponent' positive' =>
      have least' := place_pos fits'.1 positive'
      have places := compare_place fits.1 fits'.1
      cases sign <;> cases sign'
      · refine (congrArg (fun order : Ordering => some order.swap) places).trans ?_
        rw [compare_swap_neg]
        rfl
      · exact below (by simp only [unpackedRank, Sign.apply]; omega)
      · exact above (by simp only [unpackedRank, Sign.apply]; omega)
      · exact congrArg some places

theorem fits_unpack (value : Float) : Fits value.toModel.unpack := by
  rw [Float.Model.unpack, UnpackedFloat.unpack]
  generalize value.toModel.toBits.toBitVec = bits
  have mantissaBound : (@unpackMantissa Format.binary64 bits).toNat < 2 ^ 52 :=
    (@unpackMantissa Format.binary64 bits).isLt
  have exponentBound : (@unpackExponent Format.binary64 bits).toNat < 2 ^ 11 :=
    (@unpackExponent Format.binary64 bits).isLt
  have bias : (Format.binary64.exponentBias : Int) + Format.binary64.mantissaBitsWithoutImplicit =
    1075 := rfl
  split
  · split <;> trivial
  · next notAllOnes =>
    have most : (@unpackExponent Format.binary64 bits).toNat ≠ 2047 :=
      fun ones => notAllOnes (BitVec.eq_of_toNat_eq ones)
    split
    · next noExponent =>
      split
      · trivial
      · -- on the finest grid the leading bit may be missing
        rw [noExponent]
        refine ⟨⟨?_, ?_, .inr ?_⟩, ?_⟩
        · simp only [leadingBit]
          omega
        all_goals decide
    · next someExponent =>
      have least : (@unpackExponent Format.binary64 bits).toNat ≠ 0 :=
        fun zero => someExponent (BitVec.eq_of_toNat_eq zero)
      -- the leading bit is added to the mantissa
      simp only [bias]
      refine ⟨⟨?_, ?_, .inl ?_⟩, ?_⟩
      all_goals
        try rw [toNat_leading_append]
        simp only [leadingBit, leastExponent, greatestExponent]
        omega

/-! ## Numbers -/

theorem unpack_eq_notANumber_iff (value : Float) :
    value.toModel.unpack = .notANumber ↔ value = .nan := by
  rw [← UnpackedFloat.isNaN_iff]
  have same : value.toModel.unpack.isNaN = value.isNaN := rfl
  rw [same, Float.isNaN_eq_decide_eq_nan, decide_eq_true_iff]

/-- Not-a-number on either side leaves nothing to compare. -/
theorem compare_unpack (left right : Float) :
    left.toModel.unpack.compare right.toModel.unpack =
      if left ≠ .nan ∧ right ≠ .nan then some (compare (rank left) (rank right)) else none := by
  split
  · next numbers =>
    exact compare_unpackedRank (fits_unpack left) (fits_unpack right)
      (mt (unpack_eq_notANumber_iff left).mp numbers.1)
      (mt (unpack_eq_notANumber_iff right).mp numbers.2)
  · next apart =>
    by_cases first : left = .nan
    · rw [(unpack_eq_notANumber_iff left).mpr first]
      rfl
    · have second : right = .nan := by_contra fun number => apart ⟨first, number⟩
      rw [(unpack_eq_notANumber_iff right).mpr second]
      cases left.toModel.unpack <;> rfl

theorem le_iff {left right : Float} :
    left ≤ right ↔ left ≠ .nan ∧ right ≠ .nan ∧ rank left ≤ rank right := by
  have unfolded : left ≤ right ↔
      (left.toModel.unpack.compare right.toModel.unpack).any (·.isLE) = true :=
    decide_eq_true_iff
  rw [unfolded, compare_unpack, ← and_assoc]
  split
  · next numbers => rw [Option.any_some, Std.isLE_compare, and_iff_right numbers]
  · next apart => simp [apart]

/-- A number is what is at most itself. -/
theorem le_self_iff {value : Float} : value ≤ value ↔ value ≠ .nan := by
  rw [le_iff, and_iff_left le_rfl, and_self]

theorem lt_iff {left right : Float} :
    left < right ↔ left ≠ .nan ∧ right ≠ .nan ∧ rank left < rank right := by
  have unfolded : left < right ↔
      (left.toModel.unpack.compare right.toModel.unpack == some .lt) = true :=
    decide_eq_true_iff
  rw [unfolded, compare_unpack, ← and_assoc, beq_iff_eq]
  split
  · next numbers => rw [Option.some_inj, compare_lt_iff_lt, and_iff_right numbers]
  · next apart => simp [apart]

end Number

/-- What is asked of times to sort them: what is at most itself is a number, and numbers lie in a
row. Nothing else compares. -/
class Arithmetic.LawfulOrder (α : Type) [Arithmetic α] : Prop where
  left_number : ∀ {first second : α}, first ≤ second → first ≤ first
  right_number : ∀ {first second : α}, first ≤ second → second ≤ second
  trans : ∀ {first second third : α}, first ≤ second → second ≤ third → first ≤ third
  total : ∀ {first second : α}, first ≤ first → second ≤ second → first ≤ second ∨ second ≤ first
  lt_iff : ∀ {first second : α}, first < second ↔ first ≤ second ∧ ¬ second ≤ first

instance Arithmetic.lawfulOrderFloat : LawfulOrder Float where
  left_number := by
    intro first second ordered
    rw [Number.le_iff] at ordered ⊢
    exact ⟨ordered.1, ordered.1, le_rfl⟩
  right_number := by
    intro first second ordered
    rw [Number.le_iff] at ordered ⊢
    exact ⟨ordered.2.1, ordered.2.1, le_rfl⟩
  trans := by
    intro first second third ordered ordered'
    rw [Number.le_iff] at ordered ordered' ⊢
    exact ⟨ordered.1, ordered'.2.1, ordered.2.2.trans ordered'.2.2⟩
  total := by
    intro first second number number'
    rw [Number.le_iff] at number number' ⊢
    rw [Number.le_iff]
    rcases le_total (Number.rank first) (Number.rank second) with less | more
    · exact .inl ⟨number.1, number'.1, less⟩
    · exact .inr ⟨number'.1, number.1, more⟩
  lt_iff := by
    intro first second
    rw [Number.lt_iff, Number.le_iff, Number.le_iff]
    constructor
    · rintro ⟨number, number', less⟩
      exact ⟨⟨number, number', less.le⟩, fun more => absurd more.2.2 (not_le.mpr less)⟩
    · rintro ⟨⟨number, number', -⟩, notMore⟩
      exact ⟨number, number', not_le.mp fun more => notMore ⟨number', number, more⟩⟩

/-! ## Lawful orders -/

namespace Arithmetic.LawfulOrder

variable {α : Type} [Arithmetic α] [LawfulOrder α] {first second third : α}

theorem lt_of_le_of_lt (ordered : first ≤ second) (less : second < third) : first < third := by
  obtain ⟨weakly, notMore⟩ := lt_iff.mp less
  exact lt_iff.mpr ⟨trans ordered weakly, fun more => notMore (trans more ordered)⟩

theorem lt_of_lt_of_le (less : first < second) (ordered : second ≤ third) : first < third := by
  obtain ⟨weakly, notMore⟩ := lt_iff.mp less
  exact lt_iff.mpr ⟨trans weakly ordered, fun more => notMore (trans ordered more)⟩

/-- What is a number is less than another number or is not less than it. -/
theorem le_of_not_lt (number : first ≤ first) (number' : second ≤ second)
    (notLess : ¬ first < second) : second ≤ first := by
  rcases total number number' with ordered | ordered
  · exact Decidable.byContradiction fun notMore => notLess (lt_iff.mpr ⟨ordered, notMore⟩)
  · exact ordered

theorem number_of_lt (less : first < second) : second ≤ second :=
  right_number (lt_iff.mp less).1

/-- What a bound keeps out starts later than what it lets through. -/
theorem lt_of_lt_of_not_lt (number : second ≤ second) (less : first < third)
    (notLess : ¬ second < third) : first < second := by
  obtain ⟨weakly, notMore⟩ := lt_iff.mp less
  have beyond := le_of_not_lt number (number_of_lt less) notLess
  exact lt_iff.mpr ⟨trans weakly beyond, fun more => notMore (trans beyond more)⟩

/-! ## Bounds -/

theorem clamp_bounds {least greatest value : α} (ordered : least ≤ greatest)
    (number : value ≤ value) :
    least ≤ clamp least greatest value ∧ clamp least greatest value ≤ greatest := by
  rw [clamp]
  split
  · exact ⟨left_number ordered, ordered⟩
  · next notBelow =>
    split
    · exact ⟨ordered, right_number ordered⟩
    · next notAbove =>
      exact ⟨le_of_not_lt number (left_number ordered) notBelow,
        le_of_not_lt (right_number ordered) number notAbove⟩

/-- What is not a number is within no bounds, and is left alone. -/
theorem clamp_of_not_number {least greatest value : α} (notNumber : ¬ value ≤ value) :
    clamp least greatest value = value := by
  rw [clamp, if_neg, if_neg]
  · exact fun above => notNumber (number_of_lt above)
  · exact fun below => notNumber (left_number (lt_iff.mp below).1)

theorem le_larger_left {bound left : α} (ordered : bound ≤ left) (right : α) :
    bound ≤ larger left right := by
  rw [larger]
  split
  · next less => exact trans ordered (lt_iff.mp less).1
  · rw [if_pos (right_number ordered)]
    exact ordered

theorem le_larger_right {bound right : α} (left : α) (ordered : bound ≤ right) :
    bound ≤ larger left right := by
  rw [larger]
  split
  · exact ordered
  · next notLess =>
    split
    · next number => exact trans ordered (le_of_not_lt number (right_number ordered) notLess)
    · exact ordered

end Arithmetic.LawfulOrder

end Sequencer
