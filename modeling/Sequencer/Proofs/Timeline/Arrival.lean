import Sequencer.Proofs.Timeline.Sorting

/-! # Arrivals

Events are entered in the order of their arrival. An event is marked as consumed by its start alone,
and as late where it arrives after something that starts later has been consumed. As long as nothing
is late, what has been consumed sorts before what waits.
-/

namespace Sequencer

open Arithmetic

variable {α : Type}

/-- An event that has arrived and is still kept. -/
structure Arrival (α : Type) where
  event : Event α
  consumed : Bool
  late : Bool

namespace Arrival

def events (arrivals : List (Arrival α)) : List (Event α) := arrivals.map event

def taken (arrivals : List (Arrival α)) : List (Event α) := events (arrivals.filter consumed)

def waiting (arrivals : List (Arrival α)) : List (Event α) :=
  events (arrivals.filter fun arrival => !arrival.consumed)

def rewind (arrivals : List (Arrival α)) : List (Arrival α) :=
  arrivals.map fun arrival => { arrival with consumed := false }

theorem perm_events (arrivals : List (Arrival α)) :
    (taken arrivals ++ waiting arrivals).Perm (events arrivals) := by
  rw [taken, waiting, events, events, ← List.map_append]
  exact (List.filter_append_perm consumed arrivals).map event

theorem waiting_of_none_taken {arrivals : List (Arrival α)} (none : taken arrivals = []) :
    waiting arrivals = events arrivals := by
  have nothing := List.filter_eq_nil_iff.mp (List.map_eq_nil_iff.mp none)
  rw [waiting, List.filter_eq_self.mpr fun arrival member => by simp [nothing arrival member]]

theorem taken_rewind (arrivals : List (Arrival α)) : taken (rewind arrivals) = [] := by
  simp [taken, rewind, events]

theorem waiting_rewind (arrivals : List (Arrival α)) :
    waiting (rewind arrivals) = events arrivals := by
  simp [waiting, rewind, events, List.filter_map, Function.comp_def]

theorem taken_filter (arrivals : List (Arrival α)) :
    taken (arrivals.filter consumed) = taken arrivals := by
  simp [taken, List.filter_filter]

theorem waiting_filter (arrivals : List (Arrival α)) : waiting (arrivals.filter consumed) = [] := by
  simp [waiting, events]

variable [Arithmetic α]

/-- Whether something has been consumed that starts after a time. -/
def isLate (arrivals : List (Arrival α)) (time : α) : Bool :=
  arrivals.any fun arrival => arrival.consumed && decide (time < arrival.event.start)

def arrive (arrivals : List (Arrival α)) (event : Event α) : List (Arrival α) :=
  arrivals ++ [{ event, consumed := false, late := isLate arrivals event.start }]

/-- Marks what starts before a time. -/
def consume (arrivals : List (Arrival α)) (time : α) : List (Arrival α) :=
  arrivals.map fun arrival =>
    { arrival with consumed := arrival.consumed || decide (arrival.event.start < time) }

/-- What has been consumed once everything before a time is. -/
def before (time : α) (arrivals : List (Arrival α)) : List (Arrival α) :=
  arrivals.filter fun arrival => arrival.consumed || decide (arrival.event.start < time)

theorem taken_arrive (arrivals : List (Arrival α)) (event : Event α) :
    taken (arrive arrivals event) = taken arrivals := by
  simp [taken, arrive, events]

theorem waiting_arrive (arrivals : List (Arrival α)) (event : Event α) :
    waiting (arrive arrivals event) = waiting arrivals ++ [event] := by
  simp [waiting, arrive, events]

theorem taken_consume (arrivals : List (Arrival α)) (time : α) :
    taken (consume arrivals time) = events (before time arrivals) := by
  simp [taken, consume, before, events, List.filter_map, Function.comp_def]

theorem waiting_consume (arrivals : List (Arrival α)) (time : α) :
    waiting (consume arrivals time) =
      (waiting arrivals).filter fun event => !decide (event.start < time) := by
  simp [waiting, consume, events, List.filter_map, List.filter_filter, Function.comp_def,
    Bool.and_comm]

theorem taken_before (arrivals : List (Arrival α)) (time : α) :
    taken (before time arrivals) = taken arrivals := by
  simp only [taken, before, List.filter_filter]
  congr 1
  refine List.filter_congr fun arrival _ => ?_
  cases arrival.consumed <;> simp

theorem waiting_before (arrivals : List (Arrival α)) (time : α) :
    waiting (before time arrivals) =
      (waiting arrivals).filter fun event => decide (event.start < time) := by
  simp only [waiting, before, events, List.filter_filter, List.filter_map]
  congr 1
  refine List.filter_congr fun arrival _ => ?_
  cases arrival.consumed <;> simp

/-! ## Times -/

/-- How the starts go with what has been consumed. -/
structure Settled (arrivals : List (Arrival α)) : Prop where
  numbers : ∀ arrival ∈ arrivals, arrival.event.start ≤ arrival.event.start
  /-- What has been consumed while an earlier arrival waits starts before it. -/
  overtaking : arrivals.Pairwise fun earlier later =>
    later.consumed = true → earlier.consumed = false → later.event.start < earlier.event.start
  /-- What waits and is not late starts no earlier than what has been consumed. -/
  across : ∀ arrival ∈ arrivals, arrival.consumed = true → ∀ other ∈ arrivals,
    other.consumed = false → other.late = false → arrival.event.start ≤ other.event.start

namespace Settled

theorem nil : Settled (α := α) [] :=
  ⟨fun _ none => absurd none List.not_mem_nil, .nil, fun _ none => absurd none List.not_mem_nil⟩

variable {arrivals : List (Arrival α)}

theorem sublist {others : List (Arrival α)} (settled : Settled arrivals)
    (sublist : others.Sublist arrivals) : Settled others where
  numbers := fun arrival member => settled.numbers arrival (sublist.subset member)
  overtaking := settled.overtaking.sublist sublist
  across := fun arrival member isTaken other memberOther =>
    settled.across arrival (sublist.subset member) isTaken other (sublist.subset memberOther)

theorem before (settled : Settled arrivals) (time : α) : Settled (before time arrivals) :=
  settled.sublist List.filter_sublist

theorem rewind (settled : Settled arrivals) : Settled (rewind arrivals) where
  numbers := by
    intro _ member
    obtain ⟨arrival, among, rfl⟩ := List.mem_map.mp member
    exact settled.numbers arrival among
  overtaking := List.pairwise_map.mpr (List.pairwise_of_forall fun _ _ isTaken => by cases isTaken)
  across := by
    intro _ member isTaken
    obtain ⟨arrival, -, rfl⟩ := List.mem_map.mp member
    cases isTaken

theorem numbers_events (settled : Settled arrivals) :
    ∀ event ∈ events arrivals, event.start ≤ event.start := by
  intro _ member
  obtain ⟨arrival, among, rfl⟩ := List.mem_map.mp member
  exact settled.numbers arrival among

theorem numbers_waiting (settled : Settled arrivals) :
    ∀ event ∈ waiting arrivals, event.start ≤ event.start :=
  (settled.sublist List.filter_sublist).numbers_events

variable [LawfulOrder α]

theorem arrive (settled : Settled arrivals) {event : Event α}
    (number : event.start ≤ event.start) : Settled (arrive arrivals event) where
  numbers := by
    intro arrival member
    rcases List.mem_append.mp member with member | last
    · exact settled.numbers arrival member
    · rw [List.mem_singleton.mp last]
      exact number
  overtaking := by
    refine List.pairwise_append.mpr ⟨settled.overtaking, List.pairwise_singleton _ _, ?_⟩
    intro _ _ _ last isTaken
    rw [List.mem_singleton.mp last] at isTaken
    cases isTaken
  across := by
    intro arrival member isTaken other memberOther waits inTime
    rcases List.mem_append.mp member with member | last
    · rcases List.mem_append.mp memberOther with memberOther | last
      · exact settled.across arrival member isTaken other memberOther waits inTime
      · -- the new event is not late, so that nothing consumed starts after it
        rw [List.mem_singleton.mp last] at inTime ⊢
        have notLater := List.any_eq_false.mp inTime arrival member
        rw [isTaken, Bool.true_and, decide_eq_true_iff] at notLater
        exact LawfulOrder.le_of_not_lt number (settled.numbers arrival member) notLater
    · rw [List.mem_singleton.mp last] at isTaken
      cases isTaken

theorem consume (settled : Settled arrivals) (time : α) : Settled (consume arrivals time) where
  numbers := by
    intro _ member
    obtain ⟨arrival, among, rfl⟩ := List.mem_map.mp member
    exact settled.numbers arrival among
  overtaking := by
    refine List.pairwise_map.mpr (settled.overtaking.imp_of_mem ?_)
    intro earlier later memberEarlier _ overtaking isTaken waits
    rw [Bool.or_eq_false_iff, decide_eq_false_iff_not] at waits
    rcases Bool.or_eq_true_iff.mp isTaken with already | now
    · exact overtaking already waits.1
    · -- the bound lets the later arrival through and keeps the earlier one out
      exact LawfulOrder.lt_of_lt_of_not_lt (settled.numbers earlier memberEarlier)
        (of_decide_eq_true now) waits.2
  across := by
    intro _ member isTaken _ memberOther waits inTime
    obtain ⟨arrival, among, rfl⟩ := List.mem_map.mp member
    obtain ⟨other, amongOther, rfl⟩ := List.mem_map.mp memberOther
    rw [Bool.or_eq_false_iff, decide_eq_false_iff_not] at waits
    rcases Bool.or_eq_true_iff.mp isTaken with already | now
    · exact settled.across arrival among already other amongOther waits.1 inTime
    · have less := LawfulOrder.lt_of_lt_of_not_lt (settled.numbers other amongOther)
        (of_decide_eq_true now) waits.2
      exact (LawfulOrder.lt_iff.mp less).1

/-- At one time, what has been consumed arrived before what waits. -/
theorem levels (settled : Settled arrivals) (time : α) :
    (events arrivals).filter (Event.startsAt time) =
      (taken arrivals).filter (Event.startsAt time) ++
        (waiting arrivals).filter (Event.startsAt time) := by
  have once : Timeline.CeasesOnce consumed
      (arrivals.filter fun arrival => arrival.event.startsAt time) := by
    refine (settled.overtaking.filter _).imp_of_mem ?_
    intro earlier later memberEarlier memberLater overtaking isTaken
    by_contra waits
    -- an earlier arrival that waits would start after the later one
    have less := overtaking isTaken (Bool.eq_false_iff.mpr waits)
    have atTime := Event.startsAt_iff.mp (List.mem_filter.mp memberEarlier).2
    have laterAtTime := Event.startsAt_iff.mp (List.mem_filter.mp memberLater).2
    exact (LawfulOrder.lt_iff.mp less).2 (LawfulOrder.trans atTime.1 laterAtTime.2)
  have divided := congrArg events once.divides
  rw [List.filter_comm, List.filter_comm fun arrival : Arrival α => !arrival.consumed] at divided
  simpa only [events, taken, waiting, List.filter_map, List.map_append, Function.comp_def]
    using divided.symm

/-- Where nothing that waits is late, it goes behind what has been consumed. -/
theorem sorts (settled : Settled arrivals) {front rest : List (Event α)}
    (sortsFront : Event.Sorts (taken arrivals) front)
    (sortsRest : Event.Sorts (waiting arrivals) rest)
    (inTime : ∀ arrival ∈ arrivals, arrival.consumed = false → arrival.late = false) :
    Event.Sorts (events arrivals) (front ++ rest) := by
  refine sortsFront.append sortsRest (perm_events arrivals) ?_ settled.levels
  intro _ member _ memberOther
  obtain ⟨arrival, kept, rfl⟩ := List.mem_map.mp member
  obtain ⟨other, keptOther, rfl⟩ := List.mem_map.mp memberOther
  obtain ⟨among, isTaken⟩ := List.mem_filter.mp kept
  obtain ⟨amongOther, isWaiting⟩ := List.mem_filter.mp keptOther
  have waits : other.consumed = false := by simpa using isWaiting
  exact settled.across arrival among isTaken other amongOther waits (inTime other amongOther waits)

end Settled

end Arrival

end Sequencer
