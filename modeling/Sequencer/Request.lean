import Sequencer.Waveform

/-!
# Requests

A request asks a device for one sound: what sounds, when it starts, how far it extends, how loud and
where between left and right.
-/

namespace Sequencer

/-- What identifies a scheduled sound. -/
abbrev Handle := Nat

inductive Trigger (α : Type) where
  | sample (name : String) (pitch timescale : α)
  | tone (frequency : α) (waveform : Waveform)
  | slide (source target : α) (waveform : Waveform)

/-- A sample has no length of its own, a tone lasts for a while, a slide lasts up to a time. -/
inductive Extent (α : Type) where
  | instant
  | lasting (duration : α)
  | upTo (finish : α)

structure Request (α : Type) where
  trigger : Trigger α
  start : α
  extent : Extent α
  volume : α
  pan : α

/-- The time from a start to the end of an extent. -/
def Extent.duration {α : Type} [Zero α] [Sub α] (start : α) : Extent α → α
  | .instant => 0
  | .lasting duration => duration
  | .upTo finish => finish - start

end Sequencer
