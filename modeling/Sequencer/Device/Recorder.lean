import Sequencer.Device.Basic

/-!
# Recorders

A recorder is a timeline with a tuning of its own that can ask for a stop at one of the requests it
takes, counted from one.
-/

namespace Sequencer

structure Recorder (α : Type) where
  timeline : Timeline α
  taken : Nat
  stopAt : Option Nat
  tuning : String → α

namespace Recorder

variable {α : Type} [Arithmetic α]

def empty (stopAt : Option Nat) (tuning : String → α) : Recorder α :=
  { timeline := .empty, taken := 0, stopAt, tuning }

def overTimeline (recorder : Recorder α) (change : Timeline α → Timeline α) : Recorder α :=
  { recorder with timeline := change recorder.timeline }

def schedule (recorder : Recorder α) (request : Request α) : Receipt (Recorder α) :=
  let (handle, timeline) := recorder.timeline.schedule request
  let taken := recorder.taken + 1
  { handle, device := { recorder with timeline, taken }, stop := recorder.stopAt == some taken }

end Recorder

instance Recorder.instDevice {α : Type} [Arithmetic α] : Device α (Recorder α) where
  schedule := Recorder.schedule
  frequency := Recorder.tuning
  addEffect := fun recorder block effect =>
    recorder.overTimeline fun timeline => timeline.addEffect block effect
  play := fun recorder => recorder.overTimeline Timeline.play
  pause := fun recorder => recorder.overTimeline Timeline.pause
  stop := fun recorder => recorder.overTimeline Timeline.stop

end Sequencer
