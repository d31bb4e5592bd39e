import Mathlib.Data.List.TakeWhile
import Mathlib.Tactic
import Sequencer.Proofs.Number.Bits
import Sequencer.Proofs.Number.Decimal

/-! # A finite double reads back from its text

`readLiteral?_text` is the main statement. A text consists of a sign, digits and a point, so that it
has no blank and no other mark in it: `isTextCharacter_of_mem`.
-/

namespace Sequencer.Number

/-! ## Rows of digits -/

theorem ofDigits_digits (value : Nat) : ofDigits (digits value) = value :=
  Nat.ofDigitChars_ten_toDigits

theorem isDigit_digits {value : Nat} {digit : Char} (member : digit ∈ digits value) :
    digit.isDigit = true :=
  Nat.isDigit_of_mem_toDigits (by decide) (by decide) member

theorem ofDigits_zeros_append (count : Nat) (row : List Char) :
    ofDigits (List.replicate count '0' ++ row) = ofDigits row := by
  have zeros := Nat.ofDigitChars_append (b := 10) (l := List.replicate count '0') (m := row) 0
  rw [Nat.ofDigitChars_replicate_zero, Nat.mul_zero] at zeros
  exact zeros

theorem ofDigits_append_zeros (row : List Char) (count : Nat) :
    ofDigits (row ++ List.replicate count '0') = ofDigits row * 10 ^ count := by
  have zeros := Nat.ofDigitChars_append (b := 10) (l := row) (m := List.replicate count '0') 0
  rw [Nat.ofDigitChars_replicate_zero, Nat.mul_comm] at zeros
  exact zeros

/-! ## Places -/

variable (coefficient places : Nat)

theorem placed_append :
    (placed coefficient places).1 ++ (placed coefficient places).2 =
      List.replicate (places + 1 - (digits coefficient).length) '0' ++ digits coefficient :=
  List.take_append_drop _ _

theorem isDigit_placed {digit : Char}
    (member : digit ∈ (placed coefficient places).1 ++ (placed coefficient places).2) :
    digit.isDigit = true := by
  rw [placed_append, List.mem_append] at member
  rcases member with zero | written
  · rw [List.eq_of_mem_replicate zero]
    rfl
  · exact isDigit_digits written

theorem placed_whole_ne_nil : (placed coefficient places).1 ≠ [] := by
  refine List.ne_nil_of_length_pos ?_
  simp only [placed, List.length_take, List.length_append, List.length_replicate]
  omega

theorem length_placed_fraction : (placed coefficient places).2.length = places := by
  simp only [placed, List.length_drop, List.length_append, List.length_replicate]
  omega

theorem ofDigits_placed :
    ofDigits ((placed coefficient places).1 ++ (placed coefficient places).2) = coefficient := by
  rw [placed_append, ofDigits_zeros_append, ofDigits_digits]

/-- The fraction without the zeros at its end. -/
def keptFraction : List Char :=
  ((placed coefficient places).2.reverse.dropWhile (· == '0')).reverse

theorem keptFraction_append :
    ∃ count, (placed coefficient places).2 =
      keptFraction coefficient places ++ List.replicate count '0' := by
  generalize ended : (placed coefficient places).2.reverse = reversed
  -- the zeros at the end are those that the reversed fraction starts with
  refine ⟨(reversed.takeWhile (· == '0')).length, ?_⟩
  have zeros : reversed.takeWhile (· == '0') =
      List.replicate (reversed.takeWhile (· == '0')).length '0' :=
    List.eq_replicate_of_mem fun digit member => by simpa using List.mem_takeWhile_imp member
  have split := List.takeWhile_append_dropWhile (p := (· == '0')) (l := reversed)
  rw [keptFraction, ended, ← List.reverse_replicate, ← zeros, ← List.reverse_append, split, ← ended,
    List.reverse_reverse]

theorem isDigit_kept {digit : Char}
    (member : digit ∈ (placed coefficient places).1 ++ keptFraction coefficient places) :
    digit.isDigit = true := by
  obtain ⟨count, fraction⟩ := keptFraction_append coefficient places
  apply isDigit_placed coefficient places
  rw [fraction, ← List.append_assoc]
  exact List.mem_append_left _ member

/-- Without the zeros at the end the value stays the same. -/
theorem kept_value :
    (ofDigits ((placed coefficient places).1 ++ keptFraction coefficient places) : ℚ) *
        10 ^ (-(keptFraction coefficient places).length : Int) =
      coefficient * 10 ^ (-places : Int) := by
  obtain ⟨count, fraction⟩ := keptFraction_append coefficient places
  have value := ofDigits_placed coefficient places
  have length := length_placed_fraction coefficient places
  rw [fraction, ← List.append_assoc, ofDigits_append_zeros] at value
  rw [fraction, List.length_append, List.length_replicate] at length
  have castValue : (coefficient : ℚ) =
      ofDigits ((placed coefficient places).1 ++ keptFraction coefficient places) * 10 ^ count := by
    exact_mod_cast value.symm
  have castLength : (-places : Int) = -(keptFraction coefficient places).length + -count := by
    omega
  conv_rhs =>
    rw [castValue, castLength, zpow_add₀ (by norm_num), zpow_neg _ (count : Int), zpow_natCast]
  field_simp

/-! ## Reading a positional text -/

def signText (negative : Bool) : List Char := if negative then ['-'] else []

/-- A point and what comes after it, nothing for an empty fraction. -/
def fractionText (fraction : List Char) : List Char :=
  if fraction.isEmpty then [] else '.' :: fraction

theorem splitDigits_append {row rest : List Char} (allDigits : ∀ digit ∈ row, digit.isDigit = true)
    (stops : rest.head?.all (!·.isDigit) = true) : splitDigits (row ++ rest) = (row, rest) := by
  rw [splitDigits, List.span_eq_takeWhile_dropWhile, List.takeWhile_append_of_pos allDigits,
    List.dropWhile_append_of_pos allDigits]
  cases rest with
  | nil => simp
  | cons first rest =>
    have noDigit : first.isDigit = false := by simpa using stops
    simp [noDigit]

theorem splitSign_append (negative : Bool) {first : Char} {rest : List Char}
    (digit : first.isDigit = true) :
    splitSign (signText negative ++ first :: rest) = (negative, first :: rest) := by
  cases negative with
  | true => rfl
  | false =>
    have noMinus : first ≠ '-' := by rintro rfl; exact absurd digit (by decide)
    have noPlus : first ≠ '+' := by rintro rfl; exact absurd digit (by decide)
    simp [signText, splitSign, noMinus, noPlus]

theorem splitFraction_fractionText {fraction : List Char}
    (allDigits : ∀ digit ∈ fraction, digit.isDigit = true) :
    splitFraction (fractionText fraction) = (fraction, []) := by
  cases fraction with
  | nil => rfl
  | cons first fraction =>
    have whole : splitDigits (first :: fraction ++ []) = _ := splitDigits_append allDigits rfl
    rw [List.append_nil] at whole
    exact whole

theorem read?_positional (negative : Bool) {whole fraction : List Char} (nonempty : whole ≠ [])
    (allDigits : ∀ digit ∈ whole ++ fraction, digit.isDigit = true) :
    Decimal.read? (signText negative ++ (whole ++ fractionText fraction)) =
      some { negative, coefficient := ofDigits (whole ++ fraction), exponent := -fraction.length } := by
  have wholeDigits : ∀ digit ∈ whole, digit.isDigit = true :=
    fun digit member => allDigits digit (List.mem_append_left _ member)
  have fractionDigits : ∀ digit ∈ fraction, digit.isDigit = true :=
    fun digit member => allDigits digit (List.mem_append_right _ member)
  -- the digits of the whole part end at the point, or with the text
  have stops : (fractionText fraction).head?.all (!·.isDigit) = true := by
    cases fraction <;> rfl
  have sign : splitSign (signText negative ++ (whole ++ fractionText fraction)) =
      (negative, whole ++ fractionText fraction) := by
    obtain ⟨first, rest, rfl⟩ := List.exists_cons_of_ne_nil nonempty
    exact splitSign_append negative (wholeDigits first List.mem_cons_self)
  rw [Decimal.read?, sign]
  simp [splitDigits_append wholeDigits stops, splitFraction_fractionText fractionDigits, nonempty,
    readExponent?]

/-! ## The text of a double -/

theorem toList_withSign (negative : Bool) (content : String) :
    (withSign negative content).toList = signText negative ++ content.toList := by
  cases negative <;> simp [withSign, signText]

theorem toList_positional (coefficient : Nat) (exponent : Int) :
    (positional coefficient exponent).toList =
      (placed (coefficient * Nat.pow 10 exponent.toNat) (-exponent).toNat).1 ++
        fractionText (keptFraction (coefficient * Nat.pow 10 exponent.toNat) (-exponent).toNat) := by
  change (String.ofList (if (keptFraction _ _).isEmpty then _ else _ ++ '.' :: keptFraction _ _)).toList
    = _
  rw [String.toList_ofList, fractionText]
  split
  · exact (List.append_nil _).symm
  · rfl

theorem positional_value (coefficient : Nat) (exponent : Int) :
    ((coefficient * Nat.pow 10 exponent.toNat : Nat) : ℚ) * 10 ^ (-((-exponent).toNat : Int)) =
      coefficient * 10 ^ exponent := by
  have ten : 0 < 10 := by decide
  have scaled := scaled_value ten coefficient exponent
  rw [zpow_neg, zpow_natCast, ← div_eq_mul_inv]
  exact_mod_cast scaled

/-- What the text of a magnitude writes, and which double it is nearest to. -/
theorem magnitudeText_reads (significand : Nat) (exponent : Int) :
    ∃ whole fraction, whole ≠ [] ∧ (∀ digit ∈ whole ++ fraction, digit.isDigit = true) ∧
      (magnitudeText significand exponent).toList = whole ++ fractionText fraction ∧
      nearestDecimalBits (ofDigits (whole ++ fraction)) (-fraction.length) =
        nearestBits (quotient significand exponent).1 (quotient significand exponent).2 := by
  rcases Nat.eq_zero_or_pos significand with rfl | positive
  · refine ⟨['0'], [], List.cons_ne_nil _ _, by simp, by simp [magnitudeText, fractionText], ?_⟩
    -- zero is written with the one digit it has
    rw [quotient, Nat.zero_mul, nearestBits, if_pos rfl]
    exact nearestDecimalBits_zero _
  · have reads := shortest_reads .up significand exponent
    have unfolded : magnitudeText significand exponent =
        positional (shortest .up significand exponent).1 (shortest .up significand exponent).2 := by
      rw [magnitudeText, if_neg positive.ne']
    generalize shortest .up significand exponent = decimal at reads unfolded
    let coefficient := decimal.1 * Nat.pow 10 decimal.2.toNat
    let places := (-decimal.2).toNat
    refine ⟨(placed coefficient places).1, keptFraction coefficient places,
      placed_whole_ne_nil coefficient places, fun digit => isDigit_kept coefficient places, ?_, ?_⟩
    · rw [unfolded]
      exact toList_positional _ _
    · rw [← reads, nearestDecimalBits_congr (kept_value coefficient places)]
      exact nearestDecimalBits_congr (positional_value _ _)

theorem text_reads {value : Float} (finite : value.isFinite = true) :
    ∃ whole fraction, whole ≠ [] ∧ (∀ digit ∈ whole ++ fraction, digit.isDigit = true) ∧
      (text value).toList = signText (isNegative value) ++ (whole ++ fractionText fraction) ∧
      nearestDecimalBits (ofDigits (whole ++ fraction)) (-fraction.length) = magnitude value := by
  obtain ⟨significand, exponent, shaped, small, least, normal, bits⟩ := shape_of_finite finite
  obtain ⟨whole, fraction, nonempty, allDigits, written, reads⟩ :=
    magnitudeText_reads significand exponent
  refine ⟨whole, fraction, nonempty, allDigits, ?_, ?_⟩
  · rw [text, shaped, ← written]
    exact toList_withSign _ _
  · have bound := (isFinite_iff value).mp finite
    rw [reads, bits, quotient]
    rcases Nat.eq_zero_or_pos significand with rfl | positive
    · rw [Nat.zero_mul, nearestBits, if_pos rfl, normal.resolve_left (by decide), Int.sub_self]
      rfl
    · rw [nearestBits_exact positive small least normal, ← bits, Nat.min_eq_left bound.le]

theorem isFinite_of_readLiteral? {token : String} {value : Float}
    (read : readLiteral? token = some value) : value.isFinite = true := by
  rw [readLiteral?] at read
  exact (Option.filter_eq_some_iff.mp read).2

theorem readLiteral?_text {value : Float} (finite : value.isFinite = true) :
    readLiteral? (text value) = some value := by
  obtain ⟨whole, fraction, nonempty, allDigits, written, reads⟩ := text_reads finite
  rw [readLiteral?, written, read?_positional _ nonempty allDigits, Option.map_some, toDouble_eq]
  dsimp only
  rw [reads, signed_magnitude, Option.filter_some, if_pos finite]

/-- A digit, a sign or a point. -/
def isTextCharacter (character : Char) : Bool :=
  character.isDigit || character == '-' || character == '.'

theorem isTextCharacter_of_mem {value : Float} (finite : value.isFinite = true) {character : Char}
    (member : character ∈ (text value).toList) : isTextCharacter character = true := by
  obtain ⟨whole, fraction, _, allDigits, written, _⟩ := text_reads finite
  have digits : character.isDigit = true ∨ character = '-' ∨ character = '.' := by
    rw [written, signText, fractionText] at member
    by_cases negative : isNegative value = true <;>
      by_cases empty : fraction.isEmpty = true <;>
      simp [negative, empty] at member <;>
      grind
  rcases digits with digit | rfl | rfl
  · simp [isTextCharacter, digit]
  · rfl
  · rfl

end Sequencer.Number
