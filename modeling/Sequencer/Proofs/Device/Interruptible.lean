import Sequencer.Device.Basic

/-! # Devices that are interrupted

An interruptible device keeps a list of the requests that it takes, and asks for a stop with one of
them, counted from one, or with none. Apart from that it is the device within, whose own wish to
stop is passed over.
-/

namespace Sequencer

structure Interruptible (α β : Type) where
  inner : β
  taken : List (Request α)
  stopAt : Option Nat

namespace Interruptible

variable {α β : Type} [Device α β]

/-- A device that has taken nothing yet. -/
def around (device : β) (stopAt : Option Nat) : Interruptible α β :=
  { inner := device, taken := [], stopAt }

def schedule (device : Interruptible α β) (request : Request α) : Receipt (Interruptible α β) :=
  let receipt := Device.schedule device.inner request
  let taken := device.taken ++ [request]
  { handle := receipt.handle
    device := { device with inner := receipt.device, taken }
    stop := device.stopAt == some taken.length }

def overInner (device : Interruptible α β) (change : β → β) : Interruptible α β :=
  { device with inner := change device.inner }

instance instDevice : Device α (Interruptible α β) where
  schedule := schedule
  frequency := fun device => Device.frequency device.inner
  addEffect := fun device block effect =>
    device.overInner fun inner => Device.addEffect inner block effect
  play := fun device => device.overInner Device.play
  pause := fun device => device.overInner Device.pause
  stop := fun device => device.overInner Device.stop

end Interruptible

end Sequencer
