import Sequencer.Note
import Sequencer.Timeline

/-!
# Devices

A device takes requests and gives each a handle. It may ask for the run to stop as it takes one. It
knows the frequencies of note names, and takes effects as remarks about blocks. A timeline is the
device that only records.
-/

namespace Sequencer

/-- What comes back with a request taken. -/
structure Receipt (β : Type) where
  handle : Handle
  device : β
  stop : Bool

class Device (α : outParam Type) (β : Type) where
  schedule : β → Request α → Receipt β
  frequency : β → String → α
  addEffect : β → String → Effect α → β
  play : β → β
  pause : β → β
  stop : β → β

instance Timeline.instDevice {α : Type} [Arithmetic α] : Device α (Timeline α) where
  schedule := fun timeline request =>
    let (handle, scheduled) := timeline.schedule request
    { handle, device := scheduled, stop := false }
  frequency := fun _ name => Arithmetic.ofDouble (Note.frequency name)
  addEffect := Timeline.addEffect
  play := Timeline.play
  pause := Timeline.pause
  stop := Timeline.stop

end Sequencer
