import Mathlib.Data.List.Sort
import Sequencer.Proofs.Number.Order
import Sequencer.Proofs.Timeline.Search

/-! # Events in the order of their starts

A stable sort keeps the events at one time in the order of their arrival. Being ordered and stable
leaves no choice, so that rows of events that have both are the same.
-/

namespace Sequencer

namespace Event

open Arithmetic

variable {α : Type} [Arithmetic α]

/-- Whether an event starts at a time. -/
def startsAt (time : α) (event : Event α) : Bool := event.start ≤ time && time ≤ event.start

theorem startsAt_iff {time : α} {event : Event α} :
    event.startsAt time = true ↔ event.start ≤ time ∧ time ≤ event.start := by
  simp [startsAt]

/-- The stable sort of events by their starts. -/
def inOrder (events : List (Event α)) : List (Event α) :=
  events.mergeSort fun first second => first.start ≤ second.start

/-- The events that have arrived, in the order of their starts, and of their arrival where they start
at one time. -/
structure Sorts (arrived sorted : List (Event α)) : Prop where
  perm : sorted.Perm arrived
  ordered : sorted.Pairwise (·.start ≤ ·.start)
  stable : ∀ time, sorted.filter (startsAt time) = arrived.filter (startsAt time)

theorem mem_of_levels {events others : List (Event α)}
    (levels : ∀ time, events.filter (startsAt time) = others.filter (startsAt time))
    {event : Event α} (number : event.start ≤ event.start) (member : event ∈ events) :
    event ∈ others := by
  have kept : event ∈ others.filter (startsAt event.start) :=
    levels event.start ▸ List.mem_filter.mpr ⟨member, startsAt_iff.mpr ⟨number, number⟩⟩
  exact (List.mem_filter.mp kept).1

namespace Sorts

theorem nil : Sorts (α := α) [] [] :=
  ⟨.refl _, .nil, fun _ => rfl⟩

theorem filter {arrived sorted : List (Event α)} (sorts : Sorts arrived sorted)
    (keep : Event α → Bool) : Sorts (arrived.filter keep) (sorted.filter keep) where
  perm := sorts.perm.filter keep
  ordered := sorts.ordered.filter keep
  stable := by
    intro time
    rw [List.filter_comm, sorts.stable, List.filter_comm]

/-- Two rows of events one behind the other, where nothing in the second starts before anything in
the first, or arrived before what it starts with in the first. -/
theorem append {first second both sortedFirst sortedSecond : List (Event α)}
    (sortsFirst : Sorts first sortedFirst) (sortsSecond : Sorts second sortedSecond)
    (perm : (first ++ second).Perm both)
    (across : ∀ event ∈ first, ∀ later ∈ second, event.start ≤ later.start)
    (levels : ∀ time, both.filter (startsAt time) =
      first.filter (startsAt time) ++ second.filter (startsAt time)) :
    Sorts both (sortedFirst ++ sortedSecond) where
  perm := (sortsFirst.perm.append sortsSecond.perm).trans perm
  ordered := List.pairwise_append.mpr
    ⟨sortsFirst.ordered, sortsSecond.ordered, fun event member later memberLater =>
      across event (sortsFirst.perm.mem_iff.mp member) later
        (sortsSecond.perm.mem_iff.mp memberLater)⟩
  stable := by
    intro time
    rw [List.filter_append, sortsFirst.stable, sortsSecond.stable, levels]

/-- Ordered rows with the same events at each time are the same. -/
theorem eq_of_levels {left right : List (Event α)}
    (numbers : ∀ event ∈ left, event.start ≤ event.start)
    (numbers' : ∀ event ∈ right, event.start ≤ event.start)
    (ordered : left.Pairwise (·.start ≤ ·.start)) (ordered' : right.Pairwise (·.start ≤ ·.start))
    (levels : ∀ time, left.filter (startsAt time) = right.filter (startsAt time)) :
    left = right := by
  induction left generalizing right with
  | nil =>
    refine (List.eq_nil_iff_forall_not_mem.mpr fun event member => ?_).symm
    exact List.not_mem_nil
      (mem_of_levels (fun time => (levels time).symm) (numbers' event member) member)
  | cons event rest inductionHypothesis =>
    have number := numbers event List.mem_cons_self
    cases right with
    | nil => exact absurd (mem_of_levels levels number List.mem_cons_self) List.not_mem_nil
    | cons event' rest' =>
      have number' := numbers' event' List.mem_cons_self
      have first : event.start ≤ event'.start := by
        rcases List.mem_cons.mp (mem_of_levels (fun time => (levels time).symm) number'
          List.mem_cons_self) with rfl | member
        · exact number
        · exact (List.pairwise_cons.mp ordered).1 event' member
      have first' : event'.start ≤ event.start := by
        rcases List.mem_cons.mp (mem_of_levels levels number List.mem_cons_self) with rfl | member
        · exact number
        · exact (List.pairwise_cons.mp ordered').1 event member
      -- both heads lead the events at one and the same time
      have leads := levels event.start
      rw [List.filter_cons_of_pos (startsAt_iff.mpr ⟨number, number⟩),
        List.filter_cons_of_pos (startsAt_iff.mpr ⟨first', first⟩)] at leads
      obtain rfl := (List.cons.inj leads).1
      refine congrArg (event :: ·) (inductionHypothesis
        (fun other member => numbers other (List.mem_cons_of_mem _ member))
        (fun other member => numbers' other (List.mem_cons_of_mem _ member))
        (List.pairwise_cons.mp ordered).2 (List.pairwise_cons.mp ordered').2 fun time => ?_)
      have level := levels time
      rw [List.filter_cons, List.filter_cons] at level
      split at level
      · exact (List.cons.inj level).2
      · exact level

theorem unique {arrived sorted sorted' : List (Event α)}
    (numbers : ∀ event ∈ arrived, event.start ≤ event.start)
    (sorts : Sorts arrived sorted) (sorts' : Sorts arrived sorted') : sorted = sorted' :=
  eq_of_levels (fun event member => numbers event (sorts.perm.mem_iff.mp member))
    (fun event member => numbers event (sorts'.perm.mem_iff.mp member)) sorts.ordered sorts'.ordered
    fun time => (sorts.stable time).trans (sorts'.stable time).symm

variable [LawfulOrder α] {arrived sorted : List (Event α)}

/-- In sorted events, what starts no later than a time stands in front. -/
theorem ceasesOnce_le (sorts : Sorts arrived sorted) (time : α) :
    Timeline.CeasesOnce (fun event => event.start ≤ time) sorted :=
  sorts.ordered.imp fun ordered later =>
    decide_eq_true (LawfulOrder.trans ordered (of_decide_eq_true later))

theorem ceasesOnce_lt (sorts : Sorts arrived sorted) (time : α) :
    Timeline.CeasesOnce (fun event => event.start < time) sorted :=
  sorts.ordered.imp fun ordered later =>
    decide_eq_true (LawfulOrder.lt_of_le_of_lt ordered (of_decide_eq_true later))

/-- Events at one time are not divided by a property that depends on the time alone. -/
theorem divides_level {keep : Event α → Bool}
    (level : ∀ {event other}, event.start ≤ other.start → keep other = true → keep event = true)
    (events : List (Event α)) (time : α) :
    (events.filter keep).filter (startsAt time) ++
        (events.filter fun event => !keep event).filter (startsAt time) =
      events.filter (startsAt time) := by
  have once : Timeline.CeasesOnce keep (events.filter (startsAt time)) := by
    refine List.pairwise_of_forall_mem_list fun event member other memberOther => ?_
    have atTime := startsAt_iff.mp (List.mem_filter.mp member).2
    have otherAtTime := startsAt_iff.mp (List.mem_filter.mp memberOther).2
    exact level (LawfulOrder.trans atTime.1 otherAtTime.2)
  rw [List.filter_comm, List.filter_comm _ (fun event => !keep event)]
  exact once.divides

/-- An event that arrives goes in front of those that start later, and behind all others. -/
theorem insert (sorts : Sorts arrived sorted) {event : Event α}
    (number : event.start ≤ event.start)
    (numbers : ∀ other ∈ arrived, other.start ≤ other.start) :
    Sorts (arrived ++ [event])
      (sorted.filter (fun other => other.start ≤ event.start) ++
        event :: sorted.filter fun other => !decide (other.start ≤ event.start)) := by
  have before : ∀ other ∈ sorted.filter fun other => other.start ≤ event.start,
      other.start ≤ event.start :=
    fun other member => of_decide_eq_true (List.mem_filter.mp member).2
  have notBefore : ∀ other ∈ sorted.filter fun other => !decide (other.start ≤ event.start),
      ¬ other.start ≤ event.start :=
    fun other member => by simpa using (List.mem_filter.mp member).2
  have behind : ∀ other ∈ sorted.filter fun other => !decide (other.start ≤ event.start),
      event.start ≤ other.start := by
    intro other member
    have among := sorts.perm.mem_iff.mp (List.mem_filter.mp member).1
    exact (LawfulOrder.total number (numbers other among)).resolve_right (notBefore other member)
  refine ⟨?perm, ?ordered, fun time => ?stable⟩
  case perm =>
    refine (List.perm_middle.trans ((List.filter_append_perm _ sorted).cons event)).trans ?_
    exact (sorts.perm.cons event).trans (List.perm_append_singleton event arrived).symm
  case ordered =>
    refine List.pairwise_append.mpr ⟨sorts.ordered.filter _,
      List.pairwise_cons.mpr ⟨behind, sorts.ordered.filter _⟩, ?_⟩
    intro other member later memberLater
    rcases List.mem_cons.mp memberLater with rfl | memberLater
    · exact before other member
    · exact LawfulOrder.trans (before other member) (behind later memberLater)
  case stable =>
    have level : ∀ {earlier later : Event α}, earlier.start ≤ later.start →
        decide (later.start ≤ event.start) = true → decide (earlier.start ≤ event.start) = true :=
      fun ordered kept => decide_eq_true (LawfulOrder.trans ordered (of_decide_eq_true kept))
    have divided := divides_level level sorted time
    rw [List.filter_append, List.filter_append, ← sorts.stable time, ← divided]
    cases atTime : event.startsAt time with
    | false => simp [atTime]
    | true =>
      -- what starts at the time of the event stands before it
      have none : (sorted.filter fun other => !decide (other.start ≤ event.start)).filter
          (startsAt time) = [] := by
        refine List.filter_eq_nil_iff.mpr fun other member level => notBefore other member ?_
        exact LawfulOrder.trans (startsAt_iff.mp level).1 (startsAt_iff.mp atTime).2
      simp [atTime, none]

end Sorts

/-! ## Sorting -/

/-- By start, and what has no number for a start behind everything else: any two events compare. -/
def precedes (first second : Event α) : Bool :=
  first.start ≤ second.start || !decide (second.start ≤ second.start)

theorem precedes_iff {first second : Event α} (number : second.start ≤ second.start) :
    precedes first second = true ↔ first.start ≤ second.start := by
  simp [precedes, number]

variable [LawfulOrder α]

theorem precedes_trans (first second third : Event α) (one : precedes first second = true)
    (other : precedes second third = true) : precedes first third = true := by
  by_cases number : third.start ≤ third.start
  · rw [precedes_iff number] at other ⊢
    rw [precedes_iff (LawfulOrder.left_number other)] at one
    exact LawfulOrder.trans one other
  · simp [precedes, number]

theorem precedes_total (first second : Event α) :
    (precedes first second || precedes second first) = true := by
  by_cases number : first.start ≤ first.start
  · by_cases number' : second.start ≤ second.start
    · rw [Bool.or_eq_true, precedes_iff number, precedes_iff number']
      exact LawfulOrder.total number number'
    · simp [precedes, number']
  · simp [precedes, number]

theorem sorts_inOrder {arrived : List (Event α)}
    (numbers : ∀ event ∈ arrived, event.start ≤ event.start) : Sorts arrived (inOrder arrived) := by
  have same : inOrder arrived = arrived.mergeSort precedes := by
    have mapped := List.map_mergeSort (f := id) (l := arrived)
      (r := fun first second => first.start ≤ second.start) (s := precedes)
      fun first _ second member => by simp [precedes, numbers second member]
    rwa [List.map_id, List.map_id] at mapped
  rw [same]
  refine ⟨List.mergeSort_perm arrived precedes, ?_, fun time => ?_⟩
  · refine (List.pairwise_mergeSort precedes_trans precedes_total arrived).imp_of_mem ?_
    intro first second _ member inTurn
    exact (precedes_iff (numbers second (List.mem_mergeSort.mp member))).mp inTurn
  · -- the events at one time are in order already, so that sorting keeps them as they are
    have level : (arrived.filter (startsAt time)).Pairwise (precedes · ·) := by
      refine List.pairwise_of_forall_mem_list fun first member second memberSecond => ?_
      have atTime := startsAt_iff.mp (List.mem_filter.mp member).2
      have secondAtTime := startsAt_iff.mp (List.mem_filter.mp memberSecond).2
      rw [precedes_iff (LawfulOrder.left_number secondAtTime.1)]
      exact LawfulOrder.trans atTime.1 secondAtTime.2
    have kept := (List.sublist_mergeSort precedes_trans precedes_total level
      List.filter_sublist).filter (startsAt time)
    simp only [List.filter_filter, Bool.and_self] at kept
    exact (kept.eq_of_length
      ((List.mergeSort_perm arrived precedes).filter (startsAt time)).length_eq.symm).symm

end Event

end Sequencer
