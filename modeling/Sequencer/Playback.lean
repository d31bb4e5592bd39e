import Sequencer.Run.Journal

/-!
# Playback

A timeline is played against a clock. At every poll the flag and the clock are read: a lowered flag
cancels what is left, and a reading lets out the events that start before it. Playback is finished
when every event is out and the clock has come to the end of the last one.
-/

namespace Sequencer

inductive Outcome where
  | finished
  | stopped
  deriving DecidableEq, Repr

def Outcome.name : Outcome → String
  | .finished => "finished"
  | .stopped => "stopped"

structure Playback (α : Type) where
  timeline : Timeline α
  /-- When the last event ends. -/
  finish : α
  outcome : Option Outcome
  /-- How many events were pending when a stop was seen. -/
  cancelled : Option Nat

namespace Playback

variable {α : Type} [Arithmetic α]

/-- Plays from the first event on, whatever has been consumed. -/
def start (timeline : Timeline α) : Playback α :=
  let rewound := timeline.rewind.play
  { timeline := rewound, finish := rewound.span, outcome := none, cancelled := none }

def cancel (playback : Playback α) : Playback α :=
  { playback with
    timeline := playback.timeline.stop
    outcome := some .stopped
    cancelled := some playback.timeline.remaining }

/-- Lets out the events that start before the clock's reading. -/
def advance (playback : Playback α) (now : α) : Array (Event α) × Playback α :=
  let (events, timeline) := playback.timeline.drain now
  if timeline.remaining = 0 ∧ playback.finish ≤ now then
    (events, { playback with timeline := timeline.stop, outcome := some .finished })
  else (events, { playback with timeline })

/-- One poll of the flag and the clock. Nothing happens once playback has come to an end. -/
def poll (playback : Playback α) (running : Bool) (now : α) : Array (Event α) × Playback α :=
  if playback.outcome.isSome then (#[], playback)
  else if running then playback.advance now
  else (#[], playback.cancel)

/-- The time until something is due: the next event, or the end of the last one. -/
def wait (playback : Playback α) (now : α) : α :=
  let next := (playback.timeline.peek?.map Event.start).getD playback.finish
  Arithmetic.larger (next - now) 0

/-- Polls for each reading in turn, the flag being raised all along. -/
def advanceAll (playback : Playback α) : List α → Array (Event α) × Playback α
  | [] => (#[], playback)
  | now :: later =>
    let (events, next) := playback.poll true now
    let (rest, last) := next.advanceAll later
    (events ++ rest, last)

/-- What a stop leaves in the log. -/
def logLines (playback : Playback α) : List LogLine :=
  match playback.cancelled with
  | some count =>
    [{ level := .info, message := s!"playback stopped with {count} event(s) pending" }]
  | none => []

end Playback

end Sequencer
