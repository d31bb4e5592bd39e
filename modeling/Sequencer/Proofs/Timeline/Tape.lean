import Sequencer.Proofs.Timeline.Operation

/-! # Timelines with a cursor

A timeline can be kept as one row of events with a cursor in it, where each operation takes a slice
of the row, or a place in it. An operation that leaves the row would have no result. From an empty row
on there is always one, whatever way to search it goes by, and it is that of a timeline:
`performAll?_empty`.
-/

namespace Sequencer

variable {α : Type}

/-- One row of events. Those before the cursor have been consumed. -/
structure Tape (α : Type) where
  events : Array (Event α)
  cursor : Nat
  nextHandle : Handle
  effects : Array (String × Effect α)
  transport : Transport

/-- What an operation answers. -/
inductive Answer (α : Type) where
  | nothing
  | handle (handle : Handle)
  | drained (events : Array (Event α))
  | peeked (event : Option (Event α))

namespace Tape

def empty : Tape α :=
  { events := #[], cursor := 0, nextHandle := 1, effects := #[], transport := .stopped }

def remaining (tape : Tape α) : Nat := tape.events.size - tape.cursor

/-- The events between two places, if both are in the row, and in order. -/
def slice? (tape : Tape α) (first last : Nat) : Option (Array (Event α)) :=
  if first ≤ last ∧ last ≤ tape.events.size then some (tape.events.extract first last) else none

def waiting? (tape : Tape α) : Option (Array (Event α)) :=
  tape.slice? tape.cursor tape.events.size

def pause (tape : Tape α) : Tape α :=
  if tape.transport = .playing then { tape with transport := .paused } else tape

variable [Arithmetic α] (search : Timeline.Search (Event α))

def insert? (tape : Tape α) (event : Event α) : Option (Tape α) := do
  let waiting ← tape.waiting?
  let place := tape.cursor + search.place (fun other => other.start ≤ event.start) waiting
  if inside : place ≤ tape.events.size then
    some { tape with events := tape.events.insertIdx place event inside }
  else none

def schedule? (tape : Tape α) (request : Request α) : Option (Handle × Tape α) := do
  let handle := tape.nextHandle
  let after ← { tape with nextHandle := handle + 1 }.insert? search (.ofRequest handle request)
  some (handle, after)

def drain? (tape : Tape α) (time : α) : Option (Array (Event α) × Tape α) := do
  let waiting ← tape.waiting?
  let reach := tape.cursor + search.place (fun event => event.start < time) waiting
  let drained ← tape.slice? tape.cursor reach
  some (drained, { tape with cursor := reach })

/-- The answer to an operation and the row after it, if the operation stays in the row. -/
def perform? (tape : Tape α) : Operation α → Option (Answer α × Tape α)
  | .schedule request => (tape.schedule? search request).map fun (handle, after) => (.handle handle, after)
  | .insert event => (tape.insert? search event).map fun after => (.nothing, after)
  | .addEffect block effect =>
    some (.nothing, { tape with effects := tape.effects.push (block, effect) })
  | .drain time => (tape.drain? search time).map fun (drained, after) => (.drained drained, after)
  | .peek => some (.peeked tape.events[tape.cursor]?, tape)
  | .rewind => some (.nothing, { tape with cursor := 0 })
  | .clear => some (.nothing, { tape with events := #[], effects := #[], cursor := 0 })
  | .play => some (.nothing, { tape with transport := .playing })
  | .pause => some (.nothing, tape.pause)
  | .stop =>
    some (.nothing,
      { tape with events := tape.events.extract 0 tape.cursor, transport := .stopped })

def performAll? (tape : Tape α) : List (Operation α) → Option (List (Answer α) × Tape α)
  | [] => some ([], tape)
  | operation :: rest => do
    let (answer, after) ← tape.perform? search operation
    let (answers, last) ← after.performAll? rest
    some (answer :: answers, last)

end Tape

namespace Timeline

/-- A timeline as a row with a cursor. -/
def tape (timeline : Timeline α) : Tape α :=
  { events := timeline.events
    cursor := timeline.cursor
    nextHandle := timeline.nextHandle
    effects := timeline.effects
    transport := timeline.transport }

theorem remaining_tape (timeline : Timeline α) : timeline.tape.remaining = timeline.remaining := by
  change timeline.events.size - timeline.consumed.size = timeline.pending.size
  rw [size_events, size, Nat.add_sub_cancel_left]

theorem waiting?_tape (timeline : Timeline α) : timeline.tape.waiting? = some timeline.pending := by
  have inside : timeline.cursor ≤ timeline.events.size ∧
      timeline.events.size ≤ timeline.events.size := by
    rw [size_events]
    exact ⟨Nat.le_add_right _ _, Nat.le_refl _⟩
  refine (if_pos inside).trans (congrArg some (Array.toList_inj.mp ?_))
  change (timeline.events.extract timeline.cursor timeline.events.size).toList = _
  rw [Array.toList_extract, List.extract_eq_take_drop, drop_cursor]
  exact List.take_of_length_le (Nat.le_of_eq (remaining_tape timeline).symm)

/-- With the cursor in the row it is the row of a timeline. -/
theorem exists_tape_eq {tape : Tape α} (inside : tape.cursor ≤ tape.events.size) :
    ∃ timeline : Timeline α, timeline.tape = tape := by
  refine ⟨{
    consumed := tape.events.extract 0 tape.cursor
    pending := tape.events.extract tape.cursor tape.events.size
    nextHandle := tape.nextHandle
    effects := tape.effects
    transport := tape.transport }, ?_⟩
  have events : tape.events.extract 0 tape.cursor ++
      tape.events.extract tape.cursor tape.events.size = tape.events := by
    simp [inside]
  have cursor : (tape.events.extract 0 tape.cursor).size = tape.cursor := by
    simp [inside]
  rw [Timeline.tape, Timeline.events, Timeline.cursor, events, cursor]

variable [Arithmetic α] (search : Search (Event α))

/-! ## Operations -/

theorem insert?_tape (timeline : Timeline α) (event : Event α) :
    timeline.tape.insert? search event = some (timeline.insertBy search event).tape := by
  have indexed := timeline.indexed search
  have inside := (indexed.place_le event).2
  have events : timeline.events.insertIdx (timeline.place search event) event inside =
      (timeline.insertBy search event).events := by
    rw [← Array.toList_inj, indexed.insert]
    exact Array.toList_insertIdx inside
  rw [Tape.insert?, waiting?_tape]
  refine (dif_pos inside).trans (congrArg some ?_)
  exact congrArg (fun events => { timeline.tape with events }) events

theorem schedule?_tape (timeline : Timeline α) (request : Request α) :
    timeline.tape.schedule? search request =
      some ((timeline.scheduleBy search request).1, (timeline.scheduleBy search request).2.tape) := by
  have inserted := insert?_tape search
    { timeline with nextHandle := timeline.nextHandle + 1 } (.ofRequest timeline.nextHandle request)
  change (Tape.insert? search _ _ >>= fun after => some (timeline.nextHandle, after)) = _
  exact congrArg (· >>= fun after => some (timeline.nextHandle, after)) inserted

theorem drain?_tape (timeline : Timeline α) (time : α) :
    timeline.tape.drain? search time =
      some ((timeline.drainBy search time).1, (timeline.drainBy search time).2.tape) := by
  have indexed := timeline.indexed search
  obtain ⟨events, cursor⟩ := indexed.drain time
  have slice : timeline.tape.slice? timeline.cursor (timeline.reach search time) =
      some (timeline.drainBy search time).1 := by
    rw [indexed.drained]
    exact if_pos (indexed.reach_le time)
  rw [Tape.drain?, waiting?_tape]
  change (timeline.tape.slice? timeline.cursor (timeline.reach search time) >>= _) = _
  rw [slice, tape, tape, events, cursor]
  rfl

/-- The answer of a timeline to an operation. -/
def answerBy (timeline : Timeline α) : Operation α → Answer α
  | .schedule request => .handle (timeline.scheduleBy search request).1
  | .drain time => .drained (timeline.drainBy search time).1
  | .peek => .peeked timeline.peek?
  | _ => .nothing

def answersBy (timeline : Timeline α) : List (Operation α) → List (Answer α)
  | [] => []
  | operation :: rest =>
    timeline.answerBy search operation :: (timeline.performBy search operation).answersBy rest

/-- An operation on the row of a timeline is one on the timeline. -/
theorem perform?_tape (timeline : Timeline α) (operation : Operation α) :
    timeline.tape.perform? search operation =
      some (timeline.answerBy search operation, (timeline.performBy search operation).tape) := by
  cases operation with
  | schedule request => rw [Tape.perform?, schedule?_tape]; rfl
  | insert event => rw [Tape.perform?, insert?_tape]; rfl
  | drain time => rw [Tape.perform?, drain?_tape]; rfl
  | peek =>
    rw [Tape.perform?, answerBy, (timeline.indexed search).peek]
    rfl
  | rewind =>
    have events : timeline.rewind.events = timeline.events := Array.empty_append
    rw [Tape.perform?, performBy, tape, tape, events]
    rfl
  | pause =>
    rw [Tape.perform?, Tape.pause, performBy, pause]
    change some (_, if timeline.transport = .playing then _ else _) = _
    split <;> rfl
  | stop =>
    rw [Tape.perform?, performBy, tape, tape, (timeline.indexed search).stop]
    rfl
  | addEffect | clear | play => rfl

theorem performAll?_tape (timeline : Timeline α) (operations : List (Operation α)) :
    timeline.tape.performAll? search operations =
      some (timeline.answersBy search operations,
        (operations.foldl (performBy search) timeline).tape) := by
  induction operations generalizing timeline with
  | nil => rfl
  | cons operation rest inductionHypothesis =>
    rw [Tape.performAll?, perform?_tape]
    change (Tape.performAll? search _ rest >>= _) = _
    rw [inductionHypothesis]
    rfl

end Timeline

namespace Tape

variable [Arithmetic α] (search : Timeline.Search (Event α))

/-- No operation leaves a row whose cursor is in it, or moves the cursor out of it. -/
theorem exists_perform? {tape : Tape α} (inside : tape.cursor ≤ tape.events.size)
    (operation : Operation α) :
    ∃ answer after, tape.perform? search operation = some (answer, after) ∧
      after.cursor ≤ after.events.size := by
  obtain ⟨timeline, rfl⟩ := Timeline.exists_tape_eq inside
  exact ⟨_, _, timeline.perform?_tape search operation, (Timeline.indexed search _).cursor_le⟩

/-- Operations on an empty row answer what they answer on an empty timeline, and leave its row. -/
theorem performAll?_empty (operations : List (Operation α)) :
    empty.performAll? search operations =
      some (Timeline.empty.answersBy search operations,
        (operations.foldl (Timeline.performBy search) .empty).tape) :=
  Timeline.empty.performAll?_tape search operations

end Tape

end Sequencer
