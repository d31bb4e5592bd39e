import Mathlib.Data.List.Basic
import Sequencer.Timeline

/-! # Searching by halves

A property that ceases to hold once divides a row of items in two. Halving finds where: the front
is made of the items that have the property, the rest of those that have it not.
-/

namespace Sequencer.Timeline

variable {α : Type} {holds : α → Bool} {items : Array α}

/-- No item has the property behind one that has it not. -/
def CeasesOnce (holds : α → Bool) (items : List α) : Prop :=
  items.Pairwise fun earlier later => holds later = true → holds earlier = true

theorem CeasesOnce.divides {items : List α} (once : CeasesOnce holds items) :
    items.filter holds ++ items.filter (fun item => !holds item) = items := by
  induction items with
  | nil => rfl
  | cons item rest inductionHypothesis =>
    obtain ⟨head, tail⟩ := List.pairwise_cons.mp once
    cases holdsItem : holds item with
    | true => simp [holdsItem, inductionHypothesis tail]
    | false =>
      -- nothing behind it has the property any more
      have ceased : ∀ other ∈ rest, ¬ holds other = true := fun other member still =>
        absurd (head other member still) (Bool.eq_false_iff.mp holdsItem)
      rw [List.filter_cons_of_neg (by simp [holdsItem]), List.filter_eq_nil_iff.mpr ceased,
        List.nil_append, List.filter_eq_self]
      simpa [holdsItem] using ceased

theorem CeasesOnce.earlier (once : CeasesOnce holds items.toList) {first second : Nat}
    (valid : second < items.size) (validToo : first < items.size) (before : first ≤ second)
    (still : holds items[second] = true) : holds items[first] = true := by
  rcases Nat.eq_or_lt_of_le before with same | strictly
  · subst same
    exact still
  · exact List.pairwise_iff_getElem.mp once first second (by simp; omega) (by simpa) strictly still

/-- What is below the range has the property and what is beyond it has not, all along the search. -/
theorem searchBetween_spec (once : CeasesOnce holds items.toList) {low high : Nat}
    (inside : high ≤ items.size)
    (below : ∀ index (valid : index < items.size), index < low → holds items[index] = true)
    (beyond : ∀ index (valid : index < items.size), high ≤ index → holds items[index] = false)
    (ordered : low ≤ high) (index : Nat) (valid : index < items.size) :
    holds items[index] = decide (index < searchBetween holds items low high inside) := by
  fun_induction searchBetween holds items low high inside with
  | case1 low high inside _open middle holdsMiddle inductionHypothesis =>
    refine inductionHypothesis (fun index valid isBelow => ?_) beyond (by omega)
    have before : index ≤ middle := by omega
    exact once.earlier (by omega) valid before holdsMiddle
  | case2 low high inside _open middle ceased inductionHypothesis =>
    refine inductionHypothesis below (fun index valid isBeyond => ?_) (by omega)
    exact Bool.eq_false_iff.mpr fun still => ceased (once.earlier valid (by omega) isBeyond still)
  | case3 low high inside closed =>
    by_cases isBelow : index < low
    · rw [below index valid isBelow, decide_eq_true isBelow]
    · rw [beyond index valid (by omega), decide_eq_false isBelow]

theorem frontSize_spec (once : CeasesOnce holds items.toList) (index : Nat)
    (valid : index < items.size) : holds items[index] = decide (index < frontSize holds items) :=
  searchBetween_spec once _ (fun _ _ none => absurd none (Nat.not_lt_zero _))
    (fun _ valid none => absurd valid (Nat.not_lt.mpr none)) (Nat.zero_le _) index valid

theorem holds_of_mem_front (once : CeasesOnce holds items.toList) :
    ∀ item ∈ items.toList.take (frontSize holds items), holds item = true := by
  intro item member
  obtain ⟨index, valid, rfl⟩ := List.mem_take_iff_getElem.mp member
  rw [Nat.lt_min, Array.length_toList] at valid
  have spec := frontSize_spec once index valid.2
  rwa [decide_eq_true valid.1] at spec

theorem ceased_of_mem_rest (once : CeasesOnce holds items.toList) :
    ∀ item ∈ items.toList.drop (frontSize holds items), holds item = false := by
  intro item member
  obtain ⟨index, valid, rfl⟩ := List.mem_drop_iff_getElem.mp member
  rw [Array.length_toList] at valid
  have spec := frontSize_spec once (frontSize holds items + index) (by omega)
  rwa [decide_eq_false (by omega)] at spec

theorem take_frontSize (once : CeasesOnce holds items.toList) :
    items.toList.take (frontSize holds items) = items.toList.filter holds := by
  conv_rhs => rw [← List.take_append_drop (frontSize holds items) items.toList]
  rw [List.filter_append, List.filter_eq_self.mpr (holds_of_mem_front once),
    List.filter_eq_nil_iff.mpr fun item member => by simp [ceased_of_mem_rest once item member],
    List.append_nil]

theorem drop_frontSize (once : CeasesOnce holds items.toList) :
    items.toList.drop (frontSize holds items) = items.toList.filter fun item => !holds item := by
  conv_rhs => rw [← List.take_append_drop (frontSize holds items) items.toList]
  rw [List.filter_append,
    List.filter_eq_nil_iff.mpr fun item member => by simp [holds_of_mem_front once item member],
    List.filter_eq_self.mpr fun item member => by simp [ceased_of_mem_rest once item member],
    List.nil_append]

end Sequencer.Timeline
