import Mathlib.Data.List.InsertIdx
import Sequencer.Proofs.Run.Call
import Sequencer.Proofs.Run.Timely
import Sequencer.Proofs.Timeline.Operation

/-! # The span of a timeline

In exact arithmetic a timeline spans no more time than its events end by. A timeline that has only
been told of requests holds the events of these, and what it held before.
-/

namespace Sequencer

theorem Arithmetic.larger_le {first second bound : ℚ} (within : first ≤ bound)
    (within' : second ≤ bound) : larger first second ≤ bound := by
  rw [larger]
  split
  · exact within'
  · split
    · exact within
    · exact within'

namespace Timeline

theorem span_le {timeline : Timeline ℚ} {bound : ℚ} (nonneg : 0 ≤ bound)
    (within : ∀ event ∈ timeline.events.toList, event.finish ≤ bound) : timeline.span ≤ bound := by
  rw [span, ← Array.foldl_toList]
  exact List.foldlRecOn (motive := (· ≤ bound)) timeline.events.toList _ nonneg
    fun _ before event member => Arithmetic.larger_le before (within event member)

variable {α : Type} [Arithmetic α]

theorem mem_events_insert {timeline : Timeline α} {event other : Event α}
    (member : other ∈ (timeline.insert event).events.toList) :
    other = event ∨ other ∈ timeline.events.toList := by
  rw [insert, (timeline.indexed _).insert] at member
  exact List.eq_or_mem_of_mem_insertIdx member

/-- Each event has been held before, or goes back to a request. -/
theorem mem_events_replay {calls : List (Call α)} {timeline : Timeline α} {event : Event α}
    (member : event ∈ (Call.replay timeline calls).events.toList) :
    event ∈ timeline.events.toList ∨
      ∃ request handle, .schedule request ∈ calls ∧ event = .ofRequest handle request := by
  induction calls generalizing timeline with
  | nil => exact .inl member
  | cons call rest inductionHypothesis =>
    rcases inductionHypothesis member with before | ⟨request, handle, called, made⟩
    · cases call with
      | schedule request =>
        rcases mem_events_insert before with made | held
        · exact .inr ⟨request, _, List.mem_cons_self, made⟩
        · exact .inl held
      | addEffect block effect => exact .inl before
    · exact .inr ⟨request, handle, List.mem_cons_of_mem _ called, made⟩

end Timeline

end Sequencer
