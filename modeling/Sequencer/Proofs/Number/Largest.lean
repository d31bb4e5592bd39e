import Sequencer.Proofs.Number.Operations

/-! # The largest of several numbers

Numbers that are compared one after another with the largest so far may come in any order. Two zeros
are as large as each other without being the same, so that this asks for a start that is at least
zero: no zero takes its place then.
-/

namespace Sequencer

open Float.Model Float.Model.UnpackedFloat

namespace Number

/-! ## Positive doubles -/

theorem eq_of_unpack {left right : Float} (same : left.toModel.unpack = right.toModel.unpack) :
    left = right := by
  have model : left.toModel = right.toModel := by
    rw [← pack_unpack_model left.toModel, ← pack_unpack_model right.toModel, same]
  cases left
  cases right
  exact congrArg Float.ofModel model

theorem place_inj {significand significand' : Nat} {exponent exponent' : Int}
    (grid : OnGrid significand exponent) (grid' : OnGrid significand' exponent')
    (same : place significand exponent = place significand' exponent') :
    significand = significand' ∧ exponent = exponent' := by
  have order := compare_place grid grid'
  rw [compare_eq_iff_eq.mpr same, Ordering.then_eq_eq, compare_eq_iff_eq, compare_eq_iff_eq] at order
  exact ⟨order.2, order.1⟩

/-- A positive double is the only one of its rank. -/
theorem eq_of_rank {left right : Float} (positive : 0 < left) (positive' : 0 < right)
    (same : rank left = rank right) : left = right := by
  have fits := fits_unpack left
  have fits' := fits_unpack right
  refine eq_of_unpack ?_
  rw [rank, rank] at same
  rcases cases_of_pos positive with shape | ⟨significand, exponent, some, shape⟩ <;>
    rcases cases_of_pos positive' with shape' | ⟨significand', exponent', some', shape'⟩ <;>
    rw [shape] at fits same ⊢ <;> rw [shape'] at fits' same ⊢
  · exact absurd same (place_lt_infinity fits'.1 fits'.2).ne'
  · exact absurd same (place_lt_infinity fits.1 fits.2).ne
  · obtain ⟨rfl, rfl⟩ := place_inj fits.1 fits'.1 same
    rfl

end Number

namespace Arithmetic

/-- What is asked of numbers for the largest of several to be one and the same in any order. -/
class LawfulLargest (α : Type) [Arithmetic α] : Prop extends LawfulOrder α where
  zero_le_zero : (0 : α) ≤ 0
  antisymm : ∀ {first second : α}, 0 < first → 0 < second → first ≤ second → second ≤ first →
    first = second

instance lawfulLargestFloat : LawfulLargest Float where
  zero_le_zero := Number.le_self_iff.mpr (Number.ne_nan_of_isFinite Number.isFinite_zero)
  antisymm := by
    intro first second positive positive' ordered ordered'
    rw [Number.le_iff] at ordered ordered'
    exact Number.eq_of_rank positive positive' (le_antisymm ordered.2.2 ordered'.2.2)

variable {α : Type} [Arithmetic α] [LawfulLargest α] {longest : α}

open LawfulOrder

omit [LawfulLargest α] in
theorem larger_of_number {first second : α} (number : first ≤ first) :
    larger first second = if first < second then second else first := by
  rw [larger, if_pos number]

/-- Either number may come first. -/
theorem larger_right_comm (nonneg : 0 ≤ longest) (one other : α) :
    larger (larger longest one) other = larger (larger longest other) one := by
  have number : longest ≤ longest := right_number nonneg
  rw [larger_of_number number, larger_of_number number]
  by_cases first : longest < one <;> by_cases second : longest < other
  · rw [if_pos first, if_pos second, larger_of_number (number_of_lt first),
      larger_of_number (number_of_lt second)]
    by_cases less : one < other
    · rw [if_pos less, if_neg fun more => (lt_iff.mp more).2 (lt_iff.mp less).1]
    · rw [if_neg less]
      split
      · rfl
      · next notMore =>
        -- neither is less than the other, and both are positive
        exact LawfulLargest.antisymm (lt_of_le_of_lt nonneg first) (lt_of_le_of_lt nonneg second)
          (le_of_not_lt (number_of_lt second) (number_of_lt first) notMore)
          (le_of_not_lt (number_of_lt first) (number_of_lt second) less)
  · have notMore : ¬ one < other := fun less => second (lt_of_le_of_lt (lt_iff.mp first).1 less)
    rw [if_pos first, if_neg second, larger_of_number (number_of_lt first), if_neg notMore,
      larger_of_number number, if_pos first]
  · have notMore : ¬ other < one := fun less => first (lt_of_le_of_lt (lt_iff.mp second).1 less)
    rw [if_neg first, if_pos second, larger_of_number (number_of_lt second), if_neg notMore,
      larger_of_number number, if_pos second]
  · rw [if_neg first, if_neg second, larger_of_number number, larger_of_number number, if_neg first,
      if_neg second]

/-- Numbers may come in any order. -/
theorem foldl_larger_perm {durations durations' : List α} (perm : durations.Perm durations')
    (nonneg : 0 ≤ longest) :
    durations.foldl larger longest = durations'.foldl larger longest := by
  induction perm generalizing longest with
  | nil => rfl
  | cons duration _ inductionHypothesis => exact inductionHypothesis (le_larger_left nonneg duration)
  | swap one other rest =>
    exact congrArg (rest.foldl larger) (larger_right_comm nonneg other one)
  | trans _ _ first second => exact (first nonneg).trans (second nonneg)

end Arithmetic

end Sequencer
