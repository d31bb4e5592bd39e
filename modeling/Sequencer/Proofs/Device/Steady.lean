import Sequencer.Device.Basic
import Sequencer.Proofs.Run.Heeding

/-! # Devices that keep their tuning

A device is steady if it knows the same frequencies whatever it has been asked. Timelines are.
-/

namespace Sequencer

variable {α β : Type} [Device α β]

namespace Device

/-- The one device has become the other with some calls. -/
def Becomes (device later : β) : Prop := ∃ calls : List (Call α), later = Call.replay device calls

theorem Becomes.refl (device : β) : Becomes device device := ⟨[], rfl⟩

theorem Becomes.apply {device later : β} (becomes : Becomes device later) (call : Call α) :
    Becomes device (Call.apply later call) := by
  obtain ⟨calls, rfl⟩ := becomes
  exact ⟨calls ++ [call], (Call.replay_append device calls [call]).symm⟩

def Steady (device : β) : Prop :=
  ∀ later, Becomes device later → ∀ name, Device.frequency later name = Device.frequency device name

theorem Steady.frequency {device one other : β} (steady : Steady device)
    (becomes : Becomes device one) (becomes' : Becomes device other) (name : String) :
    Device.frequency one name = Device.frequency other name :=
  (steady one becomes name).trans (steady other becomes' name).symm

/-- It is enough that single calls keep the tuning. -/
theorem Steady.of_apply {device : β}
    (keeps : ∀ (later : β) call name,
      Device.frequency (Call.apply later call) name = Device.frequency later name) :
    Steady device := by
  rintro later ⟨calls, rfl⟩ name
  exact List.foldlRecOn calls _ (motive := fun later =>
    Device.frequency later name = Device.frequency device name) rfl
    fun later same call _ => (keeps later call name).trans same

end Device

theorem Timeline.steady {α : Type} [Arithmetic α] (timeline : Timeline α) :
    Device.Steady timeline :=
  .of_apply fun _ _ _ => rfl

end Sequencer
