import Sequencer.Device.Basic
import Sequencer.Proofs.Run.Sameness

/-! # Devices that take effects as remarks

Whatever effects it has been told of, such a device answers requests the same. A timeline notes
effects, and never looks at them again.
-/

namespace Sequencer

variable {α β : Type}

/-- The request that a call makes. -/
def Call.request? : Call α → Option (Request α)
  | .schedule request => some request
  | .addEffect _ _ => none

def Call.requests (calls : List (Call α)) : List (Request α) := calls.filterMap request?

namespace Device

variable [Device α β]

/-- Only requests have a say in the answers of the device. -/
def Deaf (device : β) : Prop :=
  ∀ calls calls' : List (Call α), Call.requests calls = Call.requests calls' →
    AnswersSame (Call.replay device calls) (Call.replay device calls')

/-- It is enough that there is a view of the device that effects do not change, and that its answers
and its further views can be told from. -/
theorem Deaf.of_view {δ : Type} (view : β → δ)
    (schedule : ∀ {left right}, view left = view right → ∀ request,
      view (Device.schedule left request).device = view (Device.schedule right request).device)
    (addEffect : ∀ device block effect, view (Device.addEffect device block effect) = view device)
    (answers : ∀ {left right}, view left = view right → AnswersSame left right) (device : β) :
    Deaf device := by
  have heard : ∀ (calls : List (Call α)) {left right}, view left = view right →
      view (Call.replay left calls) =
        view (Call.replay right ((Call.requests calls).map Call.schedule)) := by
    intro calls
    induction calls with
    | nil => exact id
    | cons call rest inductionHypothesis =>
      intro left right same
      cases call with
      | schedule request => exact inductionHypothesis (schedule same request)
      | addEffect block effect => exact inductionHypothesis ((addEffect _ block effect).trans same)
  intro calls calls' same
  refine answers ((heard calls rfl).trans ?_)
  rw [same]
  exact (heard calls' rfl).symm

end Device

variable [Arithmetic α]

/-- The effects of headers are no requests. -/
theorem Call.requests_ofHeaders_append (headers : List (String × Effect Float))
    (calls : List (Call α)) :
    Call.requests (Call.ofHeaders headers ++ calls) = Call.requests calls := by
  have none : Call.requests (Call.ofHeaders headers : List (Call α)) = [] := by
    rw [Call.requests, Call.ofHeaders, List.filterMap_map]
    exact List.filterMap_eq_nil_iff.mpr fun _ _ => rfl
  rw [Call.requests, List.filterMap_append, ← Call.requests, none]
  rfl

/-- Handles are counted, and nothing else is asked. -/
theorem Timeline.deaf (timeline : Timeline α) : Device.Deaf timeline :=
  .of_view Timeline.nextHandle (fun same _ => congrArg (· + 1) same) (fun _ _ _ => rfl)
    (fun same => ⟨fun _ => rfl, fun _ => same, fun _ => rfl⟩) timeline

end Sequencer
