import Sequencer.Arithmetic
import Sequencer.Number.Text
import Sequencer.Request

/-!
# Events

A request that a device has taken, under the handle it was given.
-/

namespace Sequencer

structure Event (α : Type) where
  handle : Handle
  start : α
  duration : α
  trigger : Trigger α
  volume : α
  pan : α

namespace Event

variable {α : Type} [Arithmetic α]

def ofRequest (handle : Handle) (request : Request α) : Event α :=
  { handle
    start := request.start
    duration := request.extent.duration request.start
    trigger := request.trigger
    volume := request.volume
    pan := request.pan }

def finish (event : Event α) : α := event.start + event.duration

end Event

def Trigger.text : Trigger Float → String
  | .sample name pitch timescale =>
    s!"sample {name} pitch={Number.text pitch} timescale={Number.text timescale}"
  | .tone frequency waveform => s!"tone {Number.fixed 2 frequency}Hz {waveform.name}"
  | .slide source target waveform =>
    s!"slide {Number.fixed 2 source}Hz->{Number.fixed 2 target}Hz {waveform.name}"

/-- Start and length in seconds with three places, in columns, then what sounds. -/
def Event.text (event : Event Float) : String :=
  let start := Number.padStart 9 (Number.fixed 3 event.start)
  let duration := Number.padStart 7 (Number.fixed 3 event.duration)
  let volume := Number.fixed 2 event.volume
  let pan := Number.signedFixed 2 event.pan
  s!"{start}s  {duration}s  {event.trigger.text}  vol={volume} pan={pan}"

end Sequencer
