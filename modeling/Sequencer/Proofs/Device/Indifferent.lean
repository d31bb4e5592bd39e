import Mathlib.Data.List.Forall2
import Sequencer.Device.Basic
import Sequencer.Proofs.Run.Call

/-! # Devices that do not look at times and mixes

An echo of a request asks for the same sound, at a time that corresponds to that of the request,
however loud and wherever between left and right. A device is indifferent if it answers calls and
their echoes alike. Timelines are.
-/

namespace Sequencer

variable {α β : Type}

/-! ## Echoes -/

/-- The same extent, but that what ends at a time ends at a corresponding one. -/
inductive Extent.Echo (later : α → α → Prop) : Extent α → Extent α → Prop
  | instant : Echo later .instant .instant
  | lasting (duration) : Echo later (.lasting duration) (.lasting duration)
  | upTo {finish finish'} : later finish finish' → Echo later (.upTo finish) (.upTo finish')

structure Request.Echo (later : α → α → Prop) (request echo : Request α) : Prop where
  trigger : request.trigger = echo.trigger
  start : later request.start echo.start
  extent : Extent.Echo later request.extent echo.extent

inductive Call.Echo (later : α → α → Prop) : Call α → Call α → Prop
  | schedule {request echo} : Request.Echo later request echo →
      Echo later (.schedule request) (.schedule echo)
  | addEffect (block effect) : Echo later (.addEffect block effect) (.addEffect block effect)

/-- Times that need not correspond in any way. -/
def anyTime (_ _ : α) : Prop := True

theorem Extent.Echo.anyTime {later : α → α → Prop} {extent echo : Extent α}
    (echoes : Extent.Echo later extent echo) : Extent.Echo anyTime extent echo := by
  cases echoes with
  | instant => exact .instant
  | lasting duration => exact .lasting duration
  | upTo _ => exact .upTo trivial

theorem Request.Echo.anyTime {later : α → α → Prop} {request echo : Request α}
    (echoes : Request.Echo later request echo) : Request.Echo anyTime request echo :=
  ⟨echoes.trigger, trivial, echoes.extent.anyTime⟩

/-! ## Indifference -/

namespace Device

variable [Device α β]

/-- Two devices that are tuned alike and answer a request as they answer its echoes. -/
structure AnswersAlike (left right : β) : Prop where
  frequency : ∀ name, Device.frequency left name = Device.frequency right name
  handle : ∀ {request echo}, Request.Echo anyTime request echo →
    (Device.schedule left request).handle = (Device.schedule right echo).handle
  stop : ∀ {request echo}, Request.Echo anyTime request echo →
    (Device.schedule left request).stop = (Device.schedule right echo).stop

/-- Whatever has been asked of the device, it has answered to it as to the echoes. -/
def Indifferent (device : β) : Prop :=
  ∀ calls echoes, List.Forall₂ (Call.Echo anyTime) calls echoes →
    AnswersAlike (Call.replay device calls) (Call.replay device echoes)

/-- A relation that calls and their echoes keep. -/
theorem Indifferent.of_relation (related : β → β → Prop) (device : β) (self : related device device)
    (schedule : ∀ {left right request echo}, related left right →
      Request.Echo anyTime request echo → related (Device.schedule left request).device (Device.schedule right echo).device)
    (addEffect : ∀ {left right}, related left right → ∀ block effect,
      related (Device.addEffect left block effect) (Device.addEffect right block effect))
    (alike : ∀ {left right}, related left right → AnswersAlike left right) :
    Indifferent device := by
  suffices replay : ∀ {calls echoes} {left right : β},
      List.Forall₂ (Call.Echo anyTime) calls echoes → related left right →
      related (Call.replay left calls) (Call.replay right echoes) from
    fun _ _ pairs => alike (replay pairs self)
  intro calls echoes left right pairs start
  induction pairs generalizing left right with
  | nil => exact start
  | cons pair _ inductionHypothesis =>
    refine inductionHypothesis ?_
    cases pair with
    | schedule echo => exact schedule start echo
    | addEffect block effect => exact addEffect start block effect

end Device

variable [Arithmetic α]

/-- Handles are counted. -/
theorem Timeline.indifferent (timeline : Timeline α) : Device.Indifferent timeline := by
  refine Device.Indifferent.of_relation (fun left right => left.nextHandle = right.nextHandle)
    timeline rfl ?_ ?_ ?_
  · intro left right request echo same _
    exact congrArg (· + 1) same
  · intro left right same block effect
    exact same
  · intro left right same
    exact ⟨fun _ => rfl, fun _ => same, fun _ => rfl⟩

end Sequencer
