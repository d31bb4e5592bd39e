import Sequencer.Timeline

/-! # Operations on a timeline

Whatever is done to a timeline is a row of operations. Seen as one row of events with a cursor in
it, a timeline is only changed behind the cursor, but for a rewind and a clearance.
-/

namespace Sequencer

variable {α : Type}

inductive Operation (α : Type) where
  | schedule (request : Request α)
  | insert (event : Event α)
  | addEffect (block : String) (effect : Effect α)
  | drain (time : α)
  | peek
  | rewind
  | clear
  | play
  | pause
  | stop

namespace Timeline

/-! ## The cursor -/

/-- How many events have been consumed. -/
def cursor (timeline : Timeline α) : Nat := timeline.consumed.size

theorem size_events (timeline : Timeline α) : timeline.events.size = timeline.size :=
  Array.size_append

theorem toList_events (timeline : Timeline α) :
    timeline.events.toList = timeline.consumed.toList ++ timeline.pending.toList :=
  Array.toList_append

theorem take_cursor (timeline : Timeline α) :
    timeline.events.toList.take timeline.cursor = timeline.consumed.toList := by
  rw [toList_events]
  exact List.take_left

theorem drop_cursor (timeline : Timeline α) :
    timeline.events.toList.drop timeline.cursor = timeline.pending.toList := by
  rw [toList_events]
  exact List.drop_left

theorem cursor_eq_sub (timeline : Timeline α) :
    timeline.cursor = timeline.events.size - timeline.remaining := by
  rw [size_events, size, remaining, cursor, Nat.add_sub_cancel]

theorem pause_eq (timeline : Timeline α) :
    timeline.pause = { timeline with transport := timeline.pause.transport } := by
  rw [pause]
  split <;> rfl

/-! ## Reading and writing -/

theorem insertIdx_append {β : Type} (front rest : List β) (index : Nat) (item : β) :
    (front ++ rest).insertIdx (front.length + index) item = front ++ rest.insertIdx index item := by
  induction front with
  | nil => rw [List.nil_append, List.nil_append, List.length_nil, Nat.zero_add]
  | cons first front inductionHypothesis =>
    rw [List.cons_append, List.length_cons, Nat.add_right_comm, List.insertIdx_succ_cons,
      inductionHypothesis, List.cons_append]

theorem insertIdx_eq_take_append_drop {β : Type} {items : List β} {index : Nat}
    (inside : index ≤ items.length) (item : β) :
    items.insertIdx index item = items.take index ++ item :: items.drop index := by
  have divided := insertIdx_append (items.take index) (items.drop index) 0 item
  rwa [List.take_append_drop, List.length_take_of_le inside, Nat.add_zero,
    List.insertIdx_zero] at divided

variable [Arithmetic α]

section Search

variable (search : Search (Event α))

theorem toList_pending_insertBy (timeline : Timeline α) (event : Event α) :
    (timeline.insertBy search event).pending.toList =
      timeline.pending.toList.insertIdx
        (search.place (fun other => other.start ≤ event.start) timeline.pending) event :=
  Array.toList_insertIdx (search.place_le _ _)

theorem toList_drainedBy (timeline : Timeline α) (time : α) :
    (timeline.drainBy search time).1.toList =
      timeline.pending.toList.take
        (search.place (fun event => event.start < time) timeline.pending) := by
  simp [drainBy]

theorem toList_pending_drainBy (timeline : Timeline α) (time : α) :
    (timeline.drainBy search time).2.pending.toList =
      timeline.pending.toList.drop
        (search.place (fun event => event.start < time) timeline.pending) := by
  simp [drainBy, List.take_of_length_le]

/-- The drained events change sides. -/
theorem events_drainBy (timeline : Timeline α) (time : α) :
    (timeline.drainBy search time).2.events = timeline.events := by
  refine Array.toList_inj.mp ?_
  have consumed : (timeline.drainBy search time).2.consumed.toList =
      timeline.consumed.toList ++ (timeline.drainBy search time).1.toList := Array.toList_append
  rw [toList_events, toList_events, consumed, toList_drainedBy, toList_pending_drainBy,
    List.append_assoc, List.take_append_drop]

/-- Where an event goes among all events. -/
def place (timeline : Timeline α) (event : Event α) : Nat :=
  timeline.cursor + search.place (fun other => other.start ≤ event.start) timeline.pending

/-- How far the events go that have been consumed or start before a time. -/
def reach (timeline : Timeline α) (time : α) : Nat :=
  timeline.cursor + search.place (fun event => event.start < time) timeline.pending

/-- The timeline as one row of events with a cursor in it. Whatever is read or inserted lies behind
the cursor and within the row. -/
structure Indexed (timeline : Timeline α) : Prop where
  cursor_le : timeline.cursor ≤ timeline.events.size
  place_le : ∀ event, timeline.cursor ≤ timeline.place search event ∧
    timeline.place search event ≤ timeline.events.size
  reach_le : ∀ time, timeline.cursor ≤ timeline.reach search time ∧
    timeline.reach search time ≤ timeline.events.size
  insert : ∀ event, (timeline.insertBy search event).events.toList =
    timeline.events.toList.insertIdx (timeline.place search event) event
  drained : ∀ time, (timeline.drainBy search time).1 =
    timeline.events.extract timeline.cursor (timeline.reach search time)
  drain : ∀ time, (timeline.drainBy search time).2.events = timeline.events ∧
    (timeline.drainBy search time).2.cursor = timeline.reach search time
  peek : timeline.peek? = timeline.events[timeline.cursor]?
  stop : timeline.stop.events = timeline.events.extract 0 timeline.cursor

theorem indexed (timeline : Timeline α) : timeline.Indexed search where
  cursor_le := by
    rw [size_events]
    exact Nat.le_add_right _ _
  place_le := by
    intro event
    rw [size_events]
    exact ⟨Nat.le_add_right _ _, Nat.add_le_add_left (search.place_le _ _) _⟩
  reach_le := by
    intro time
    rw [size_events]
    exact ⟨Nat.le_add_right _ _, Nat.add_le_add_left (search.place_le _ _) _⟩
  insert := by
    intro event
    rw [toList_events, toList_events, toList_pending_insertBy]
    exact (insertIdx_append _ _ _ event).symm
  drained := by
    intro time
    rw [events, cursor, reach, cursor, Array.extract_append]
    simp [drainBy]
  drain := by
    intro time
    have inside := search.place_le (fun event => decide (event.start < time)) timeline.pending
    refine ⟨timeline.events_drainBy search time, ?_⟩
    simp [Timeline.drainBy, cursor, reach, Nat.min_eq_left inside]
  peek := by
    rw [events, cursor, Array.getElem?_append_right (Nat.le_refl _), Nat.sub_self]
    rfl
  stop := by
    simp [stop, events, cursor]

/-! ## Operations -/

/-- The timeline after an operation, with a way to search it. -/
def performBy (timeline : Timeline α) : Operation α → Timeline α
  | .schedule request => (timeline.scheduleBy search request).2
  | .insert event => timeline.insertBy search event
  | .addEffect block effect => timeline.addEffect block effect
  | .drain time => (timeline.drainBy search time).2
  | .peek => timeline
  | .rewind => timeline.rewind
  | .clear => timeline.clear
  | .play => timeline.play
  | .pause => timeline.pause
  | .stop => timeline.stop

end Search

/-! ## Searching by halves -/

theorem toList_pending_insert (timeline : Timeline α) (event : Event α) :
    (timeline.insert event).pending.toList =
      timeline.pending.toList.insertIdx
        (frontSize (fun other => other.start ≤ event.start) timeline.pending) event :=
  toList_pending_insertBy .halving timeline event

theorem toList_drained (timeline : Timeline α) (time : α) :
    (timeline.drain time).1.toList =
      timeline.pending.toList.take
        (frontSize (fun event => event.start < time) timeline.pending) :=
  toList_drainedBy .halving timeline time

theorem toList_pending_drain (timeline : Timeline α) (time : α) :
    (timeline.drain time).2.pending.toList =
      timeline.pending.toList.drop
        (frontSize (fun event => event.start < time) timeline.pending) :=
  toList_pending_drainBy .halving timeline time

/-- The timeline after an operation. -/
def perform (timeline : Timeline α) (operation : Operation α) : Timeline α :=
  timeline.performBy .halving operation

end Timeline

end Sequencer
