import Sequencer.Effect
import Sequencer.Event

/-!
# Timelines

A timeline keeps events in the order of their starts, those with equal starts in the order of their
arrival. A reader consumes it from the front; what it has not consumed can still be cancelled, and
new events are sorted in among that part only.
-/

namespace Sequencer

inductive Transport where
  | stopped
  | playing
  | paused
  deriving DecidableEq, Repr

def Transport.name : Transport → String
  | .stopped => "stopped"
  | .playing => "playing"
  | .paused => "paused"

structure Timeline (α : Type) where
  consumed : Array (Event α)
  pending : Array (Event α)
  nextHandle : Handle
  effects : Array (String × Effect α)
  transport : Transport

namespace Timeline

/-! ## Searching -/

/-- Narrows a range down, halving it, to the place where a property of the items ceases to hold. -/
def searchBetween {α : Type} (holds : α → Bool) (items : Array α) (low high : Nat)
    (inside : high ≤ items.size) : Nat :=
  if _open : low < high then
    let middle := (low + high) / 2
    if holds items[middle] then searchBetween holds items (middle + 1) high inside
    else searchBetween holds items low middle (by omega)
  else low
termination_by high - low

theorem searchBetween_le {α : Type} (holds : α → Bool) (items : Array α) (low high : Nat)
    (inside : high ≤ items.size) (ordered : low ≤ high) :
    searchBetween holds items low high inside ≤ high := by
  fun_induction searchBetween holds items low high inside with
  | case1 low high inside _open middle _ inductionHypothesis => exact inductionHypothesis (by omega)
  | case2 low high inside _open middle _ inductionHypothesis =>
    exact Nat.le_trans (inductionHypothesis (by omega)) (by omega)
  | case3 => exact ordered

/-- How many items at the front have a property that ceases to hold once. -/
def frontSize {α : Type} (holds : α → Bool) (items : Array α) : Nat :=
  searchBetween holds items 0 items.size (Nat.le_refl _)

theorem frontSize_le {α : Type} (holds : α → Bool) (items : Array α) :
    frontSize holds items ≤ items.size :=
  searchBetween_le holds items 0 items.size (Nat.le_refl _) (Nat.zero_le _)

/-- A way to find the place where a property of items ceases to hold. Where items with the property
lie behind others that have it not, any place within the row will do. -/
structure Search (α : Type) where
  place : (α → Bool) → Array α → Nat
  place_le : ∀ holds items, place holds items ≤ items.size

def Search.halving {α : Type} : Search α where
  place := frontSize
  place_le := frontSize_le

/-! ## Reading and writing -/

variable {α : Type}

def empty : Timeline α :=
  { consumed := #[], pending := #[], nextHandle := 1, effects := #[], transport := .stopped }

def events (timeline : Timeline α) : Array (Event α) := timeline.consumed ++ timeline.pending

def size (timeline : Timeline α) : Nat := timeline.consumed.size + timeline.pending.size

def isEmpty (timeline : Timeline α) : Bool := timeline.size == 0

def remaining (timeline : Timeline α) : Nat := timeline.pending.size

def peek? (timeline : Timeline α) : Option (Event α) := timeline.pending[0]?

/-- Reads from the start again. -/
def rewind (timeline : Timeline α) : Timeline α :=
  { timeline with consumed := #[], pending := timeline.events }

def clear (timeline : Timeline α) : Timeline α :=
  { timeline with consumed := #[], pending := #[], effects := #[] }

def addEffect (timeline : Timeline α) (block : String) (effect : Effect α) : Timeline α :=
  { timeline with effects := timeline.effects.push (block, effect) }

section Order

variable [Arithmetic α]

/-- Sorts an event in behind the pending ones that start no later, as they are found. -/
def insertBy (search : Search (Event α)) (timeline : Timeline α) (event : Event α) : Timeline α :=
  { timeline with
    pending := timeline.pending.insertIdx
      (search.place (fun other => other.start ≤ event.start) timeline.pending) event
      (search.place_le _ _) }

/-- Takes a request under a new handle. -/
def scheduleBy (search : Search (Event α)) (timeline : Timeline α) (request : Request α) :
    Handle × Timeline α :=
  let handle := timeline.nextHandle
  (handle,
    { timeline with nextHandle := handle + 1 }.insertBy search (.ofRequest handle request))

/-- Consumes the pending events that start before a time, as they are found. -/
def drainBy (search : Search (Event α)) (timeline : Timeline α) (time : α) :
    Array (Event α) × Timeline α :=
  let count := search.place (fun event => event.start < time) timeline.pending
  let drained := timeline.pending.extract 0 count
  (drained,
    { timeline with
      consumed := timeline.consumed ++ drained
      pending := timeline.pending.extract count timeline.pending.size })

def insert (timeline : Timeline α) (event : Event α) : Timeline α :=
  timeline.insertBy .halving event

def schedule (timeline : Timeline α) (request : Request α) : Handle × Timeline α :=
  timeline.scheduleBy .halving request

def drain (timeline : Timeline α) (time : α) : Array (Event α) × Timeline α :=
  timeline.drainBy .halving time

/-- The latest end of any event. -/
def span (timeline : Timeline α) : α :=
  timeline.events.foldl (fun latest event => Arithmetic.larger latest event.finish) 0

end Order

/-! ## Transport -/

def play (timeline : Timeline α) : Timeline α := { timeline with transport := .playing }

/-- Only what plays can pause. -/
def pause (timeline : Timeline α) : Timeline α :=
  if timeline.transport = .playing then { timeline with transport := .paused } else timeline

/-- Cancels what has not been consumed. -/
def stop (timeline : Timeline α) : Timeline α :=
  { timeline with pending := #[], transport := .stopped }

end Timeline

end Sequencer
