import Sequencer.Run.State

/-! # Calls to a device

What a run asks of its device, as it can be read off the journal. Tuning is asked for too, but the
answer changes nothing in the device.
-/

namespace Sequencer

inductive Call (α : Type) where
  | schedule (request : Request α)
  | addEffect (block : String) (effect : Effect α)

namespace Call

variable {α β : Type} [Device α β]

/-- The device after a call. -/
def apply (device : β) : Call α → β
  | .schedule request => (Device.schedule device request).device
  | .addEffect block effect => Device.addEffect device block effect

def replay (device : β) (calls : List (Call α)) : β := calls.foldl apply device

end Call

def Entry.call? {α : Type} : Entry α → Option (Call α)
  | .dispatched request _ _ => some (.schedule request)
  | .effectRecorded block effect => some (.addEffect block effect)
  | _ => none

/-- The calls of a row of entries, in their order. -/
def Entry.calls {α : Type} (entries : List (Entry α)) : List (Call α) := entries.filterMap call?

end Sequencer
