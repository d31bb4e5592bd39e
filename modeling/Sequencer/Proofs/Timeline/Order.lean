import Sequencer.Proofs.Timeline.Arrival
import Sequencer.Proofs.Timeline.Operation

/-! # Timelines in order

A ledger tells from the operations alone what a timeline keeps and what has been consumed. Given
numbers for starts, and no rewind while something late is kept, a timeline shows the events of the
ledger sorted: those that wait, those that a drain returns, and the next one.
-/

namespace Sequencer

open Arithmetic

variable {α : Type}

/-- What has arrived, in the order of arrival, and the next handle. -/
structure Ledger (α : Type) where
  arrivals : List (Arrival α)
  nextHandle : Handle

namespace Ledger

def empty : Ledger α := { arrivals := [], nextHandle := 1 }

def events (ledger : Ledger α) : List (Event α) := Arrival.events ledger.arrivals

def taken (ledger : Ledger α) : List (Event α) := Arrival.taken ledger.arrivals

def waiting (ledger : Ledger α) : List (Event α) := Arrival.waiting ledger.arrivals

variable [Arithmetic α]

/-- The ledger after an operation. -/
def perform (ledger : Ledger α) : Operation α → Ledger α
  | .schedule request =>
    { arrivals := Arrival.arrive ledger.arrivals (.ofRequest ledger.nextHandle request)
      nextHandle := ledger.nextHandle + 1 }
  | .insert event => { ledger with arrivals := Arrival.arrive ledger.arrivals event }
  | .drain time => { ledger with arrivals := Arrival.consume ledger.arrivals time }
  | .rewind => { ledger with arrivals := Arrival.rewind ledger.arrivals }
  | .clear => { ledger with arrivals := [] }
  | .stop => { ledger with arrivals := ledger.arrivals.filter Arrival.consumed }
  | .addEffect _ _ | .peek | .play | .pause => ledger

def ofOperations (operations : List (Operation α)) : Ledger α := operations.foldl perform empty

/-- What starts has a number for it, and nothing is late when there is a rewind. -/
def Permits (ledger : Ledger α) : Operation α → Prop
  | .schedule request => request.start ≤ request.start
  | .insert event => event.start ≤ event.start
  | .rewind => ∀ arrival ∈ ledger.arrivals, arrival.late = false
  | _ => True

instance instDecidablePermits (ledger : Ledger α) :
    (operation : Operation α) → Decidable (ledger.Permits operation)
  | .schedule request => inferInstanceAs (Decidable (request.start ≤ request.start))
  | .insert event => inferInstanceAs (Decidable (event.start ≤ event.start))
  | .rewind => inferInstanceAs (Decidable (∀ arrival ∈ ledger.arrivals, arrival.late = false))
  | .addEffect _ _ | .drain _ | .peek | .clear | .play | .pause | .stop => .isTrue trivial

/-- Operations that are all permitted in their turn. -/
def PermitsAll (ledger : Ledger α) : List (Operation α) → Prop
  | [] => True
  | operation :: rest => ledger.Permits operation ∧ (ledger.perform operation).PermitsAll rest

instance instDecidablePermitsAll (ledger : Ledger α) :
    (operations : List (Operation α)) → Decidable (ledger.PermitsAll operations)
  | [] => .isTrue trivial
  | operation :: rest =>
    have := instDecidablePermitsAll (ledger.perform operation) rest
    inferInstanceAs (Decidable (_ ∧ _))

end Ledger

namespace Timeline

variable [Arithmetic α]

def ofOperations (operations : List (Operation α)) : Timeline α := operations.foldl perform empty

/-! ## What is kept -/

/-- A timeline keeps what a ledger keeps. -/
structure Follows (timeline : Timeline α) (ledger : Ledger α) : Prop where
  nextHandle : timeline.nextHandle = ledger.nextHandle
  settled : Arrival.Settled ledger.arrivals
  waiting : Event.Sorts ledger.waiting timeline.pending.toList
  perm_taken : timeline.consumed.toList.Perm ledger.taken
  taken : (∀ arrival ∈ ledger.arrivals, arrival.consumed = true → arrival.late = false) →
    Event.Sorts ledger.taken timeline.consumed.toList

namespace Follows

variable {timeline : Timeline α} {ledger : Ledger α}

theorem empty : Follows (α := α) .empty .empty :=
  ⟨rfl, .nil, .nil, .refl _, fun _ => .nil⟩

theorem stop (follows : timeline.Follows ledger) :
    timeline.stop.Follows { ledger with arrivals := ledger.arrivals.filter Arrival.consumed } where
  nextHandle := follows.nextHandle
  settled := follows.settled.sublist List.filter_sublist
  waiting := by
    rw [Ledger.waiting, Arrival.waiting_filter]
    exact .nil
  perm_taken := by
    rw [Ledger.taken, Arrival.taken_filter]
    exact follows.perm_taken
  taken := by
    intro inTime
    rw [Ledger.taken, Arrival.taken_filter]
    exact follows.taken fun arrival member isTaken =>
      inTime arrival (List.mem_filter.mpr ⟨member, isTaken⟩) isTaken

theorem pause (follows : timeline.Follows ledger) : timeline.pause.Follows ledger := by
  rw [pause_eq]
  exact ⟨follows.nextHandle, follows.settled, follows.waiting, follows.perm_taken, follows.taken⟩

variable [LawfulOrder α]

theorem insert (follows : timeline.Follows ledger) {event : Event α}
    (number : event.start ≤ event.start) {after : Timeline α} {handle : Handle}
    (nextHandle : after.nextHandle = handle) (consumed : after.consumed = timeline.consumed)
    (pending : after.pending = (timeline.insert event).pending) :
    after.Follows
      { arrivals := Arrival.arrive ledger.arrivals event, nextHandle := handle } where
  nextHandle := nextHandle
  settled := follows.settled.arrive number
  waiting := by
    have once := follows.waiting.ceasesOnce_le event.start
    rw [Ledger.waiting, Arrival.waiting_arrive, pending, toList_pending_insert,
      insertIdx_eq_take_append_drop (frontSize_le _ _), take_frontSize once, drop_frontSize once]
    exact follows.waiting.insert number follows.settled.numbers_waiting
  perm_taken := by
    rw [Ledger.taken, Arrival.taken_arrive, consumed]
    exact follows.perm_taken
  taken := by
    intro inTime
    rw [Ledger.taken, Arrival.taken_arrive, consumed]
    exact follows.taken fun arrival member => inTime arrival (List.mem_append_left _ member)

theorem drained (follows : timeline.Follows ledger) (time : α) :
    (timeline.drain time).1.toList =
      timeline.pending.toList.filter fun event => event.start < time := by
  rw [toList_drained, take_frontSize (follows.waiting.ceasesOnce_lt time)]

theorem drain (follows : timeline.Follows ledger) (time : α) :
    (timeline.drain time).2.Follows
      { ledger with arrivals := Arrival.consume ledger.arrivals time } := by
  have consumed : (timeline.drain time).2.consumed.toList =
      timeline.consumed.toList ++ timeline.pending.toList.filter fun event => event.start < time :=
    Array.toList_append.trans (congrArg _ (follows.drained time))
  have sorts := follows.waiting.filter fun event => event.start < time
  refine ⟨follows.nextHandle, follows.settled.consume time, ?waiting, ?perm_taken, fun inTime => ?taken⟩
  case waiting =>
    rw [Ledger.waiting, Arrival.waiting_consume, toList_pending_drain,
      drop_frontSize (follows.waiting.ceasesOnce_lt time)]
    exact follows.waiting.filter _
  case perm_taken =>
    rw [Ledger.taken, Arrival.taken_consume, consumed]
    refine (follows.perm_taken.append sorts.perm).trans (.trans ?_ (Arrival.perm_events _))
    rw [Arrival.taken_before, Arrival.waiting_before]
    exact .refl _
  case taken =>
    -- the events consumed so far sort before those that the drain returns
    have inTimeOf : ∀ arrival ∈ ledger.arrivals,
        (arrival.consumed || decide (arrival.event.start < time)) = true → arrival.late = false :=
      fun arrival member => inTime _ (List.mem_map_of_mem member)
    rw [Ledger.taken, Arrival.taken_consume, consumed]
    refine (follows.settled.before time).sorts ?_ ?_ ?_
    · rw [Arrival.taken_before]
      exact follows.taken fun arrival member isTaken => inTimeOf arrival member (by simp [isTaken])
    · rw [Arrival.waiting_before]
      exact sorts
    · intro arrival member _
      obtain ⟨among, marked⟩ := List.mem_filter.mp member
      exact inTimeOf arrival among marked

theorem rewind (follows : timeline.Follows ledger)
    (inTime : ∀ arrival ∈ ledger.arrivals, arrival.late = false) :
    timeline.rewind.Follows { ledger with arrivals := Arrival.rewind ledger.arrivals } where
  nextHandle := follows.nextHandle
  settled := follows.settled.rewind
  waiting := by
    have taken := follows.taken fun arrival member _ => inTime arrival member
    rw [Ledger.waiting, Arrival.waiting_rewind]
    change Event.Sorts _ timeline.events.toList
    rw [toList_events]
    exact follows.settled.sorts taken follows.waiting fun arrival member _ => inTime arrival member
  perm_taken := by
    rw [Ledger.taken, Arrival.taken_rewind]
    exact .refl _
  taken := by
    intro _
    rw [Ledger.taken, Arrival.taken_rewind]
    exact .nil

theorem perform (follows : timeline.Follows ledger) {operation : Operation α}
    (permitted : ledger.Permits operation) :
    (timeline.perform operation).Follows (ledger.perform operation) := by
  cases operation with
  | schedule request =>
    rw [Ledger.perform, ← follows.nextHandle]
    have number : (Event.ofRequest timeline.nextHandle request).start ≤
        (Event.ofRequest timeline.nextHandle request).start := permitted
    exact follows.insert number rfl rfl rfl
  | insert event => exact follows.insert permitted follows.nextHandle rfl rfl
  | drain time => exact follows.drain time
  | rewind => exact follows.rewind permitted
  | clear => exact ⟨follows.nextHandle, .nil, .nil, .refl _, fun _ => .nil⟩
  | stop => exact follows.stop
  | pause => exact follows.pause
  | addEffect | peek | play =>
    exact ⟨follows.nextHandle, follows.settled, follows.waiting, follows.perm_taken, follows.taken⟩

theorem performAll (follows : timeline.Follows ledger) {operations : List (Operation α)}
    (permitted : ledger.PermitsAll operations) :
    (operations.foldl Timeline.perform timeline).Follows (operations.foldl Ledger.perform ledger) := by
  induction operations generalizing timeline ledger with
  | nil => exact follows
  | cons operation rest inductionHypothesis =>
    exact inductionHypothesis (follows.perform permitted.1) permitted.2

end Follows

/-! ## What is shown -/

/-- What a timeline shows of the events that a ledger keeps. -/
structure Shows (timeline : Timeline α) (ledger : Ledger α) : Prop where
  cursor_le : timeline.cursor ≤ timeline.events.size
  unconsumed : timeline.events.toList.drop timeline.cursor = Event.inOrder ledger.waiting
  ordered : (timeline.events.toList.drop timeline.cursor).Pairwise (·.start ≤ ·.start)
  /-- Events with one start are in the order of their arrival. -/
  level : ∀ time, (timeline.events.toList.drop timeline.cursor).filter (Event.startsAt time) =
    ledger.waiting.filter (Event.startsAt time)
  drained : ∀ time, (timeline.drain time).1.toList =
    (Event.inOrder ledger.waiting).filter fun event => event.start < time
  next : timeline.peek? = (Event.inOrder ledger.waiting).head?
  least : ∀ event ∈ timeline.peek?, ∀ other ∈ ledger.waiting, event.start ≤ other.start
  whole : timeline.cursor = 0 → timeline.events.toList = Event.inOrder ledger.events

theorem Follows.shows [LawfulOrder α] {timeline : Timeline α} {ledger : Ledger α}
    (follows : timeline.Follows ledger) : timeline.Shows ledger := by
  have numbers := follows.settled.numbers_waiting
  have pending : timeline.pending.toList = Event.inOrder ledger.waiting :=
    follows.waiting.unique numbers (Event.sorts_inOrder numbers)
  have next : timeline.peek? = timeline.pending.toList.head? := by
    rw [peek?, List.head?_eq_getElem?, Array.getElem?_toList]
  refine ⟨(timeline.indexed .halving).cursor_le, timeline.drop_cursor.trans pending, ?ordered, fun time => ?level,
    fun time => ?drained, next.trans (congrArg _ pending), ?least, ?whole⟩
  case ordered =>
    rw [drop_cursor]
    exact follows.waiting.ordered
  case level =>
    rw [drop_cursor]
    exact follows.waiting.stable time
  case drained => rw [follows.drained, pending]
  case least =>
    intro event isNext other member
    rw [next, Option.mem_def] at isNext
    obtain ⟨rest, same⟩ := List.head?_eq_some_iff.mp isNext
    have sorts := same ▸ follows.waiting
    rcases List.mem_cons.mp (sorts.perm.mem_iff.mpr member) with rfl | later
    · exact numbers _ member
    · exact (List.pairwise_cons.mp sorts.ordered).1 other later
  case whole =>
    intro none
    -- with the cursor at the front everything that has arrived waits
    have noneTaken : ledger.taken = [] := by
      rw [← List.length_eq_zero_iff, ← follows.perm_taken.length_eq]
      exact none
    have noneConsumed : timeline.consumed.toList = [] := List.length_eq_zero_iff.mp none
    rw [toList_events, noneConsumed, List.nil_append, pending, Ledger.waiting,
      Arrival.waiting_of_none_taken noneTaken]
    rfl

/-- Whatever is done to a timeline, as long as it is permitted, what waits is in order. -/
theorem shows_in_order [LawfulOrder α] {operations : List (Operation α)}
    (permitted : Ledger.empty.PermitsAll operations) :
    (ofOperations operations).Shows (Ledger.ofOperations operations) :=
  (Follows.empty.performAll permitted).shows

/-- A late event is cancelled before the rewind. -/
def rehearsal : List (Operation Float) :=
  let request := fun (name : String) (start : Float) =>
    { trigger := .sample name 1 1, start, extent := .instant, volume := 1, pan := 0 }
  [.schedule (request "crash" 2), .schedule (request "kick" 0), .schedule (request "snare" (-0)),
    .play, .drain 1, .schedule (request "hat" 2), .peek, .drain 3, .schedule (request "late" 1),
    .stop, .rewind, .drain (0 / 0), .schedule (request "clap" 0)]

theorem shows_in_order_rehearsal :
    Ledger.empty.PermitsAll rehearsal ∧
      (ofOperations rehearsal).Shows (Ledger.ofOperations rehearsal) ∧
      (ofOperations rehearsal).events.toList.map Event.handle = [2, 3, 6, 1, 4] := by
  have permitted : Ledger.empty.PermitsAll rehearsal := by decide +kernel
  exact ⟨permitted, shows_in_order permitted, by decide +kernel⟩

end Timeline

end Sequencer
