import Sequencer.Proofs.Number.Operations
import Sequencer.Proofs.Program.Numerals
import Sequencer.Proofs.Run.Unmoved

/-! # The bounds of requests

Times count up from zero, and volumes and pans are clamped when they are heard. Yet a product of zero
and infinity is not a number, and passes every clamp: a time or a volume that is none goes back to a
moment of the run at which two such factors have been multiplied.
-/

namespace Sequencer

open Number

/-- A number with a property, unless there is a reason for it not to be a number. -/
def NumberUnless (reason : Prop) (holds : Float → Prop) (value : Float) : Prop :=
  holds value ∨ value = .nan ∧ reason

/-- Seconds from the start of playback. -/
def IsTime (reason : Prop) : Float → Prop := NumberUnless reason (0 ≤ ·)

/-! ## Times -/

namespace IsTime

variable {reason : Prop} {first second : Float}

theorem zero : IsTime reason 0 := .inl zero_nonneg

/-- What is reached from a time is not before it. -/
theorem le_add (isTime : IsTime reason first) (isTime' : IsTime reason second) :
    NumberUnless reason (first ≤ ·) (first + second) := by
  rcases isTime with nonneg | ⟨rfl, given⟩
  · rcases isTime' with nonneg' | ⟨rfl, given⟩
    · exact .inl (Number.le_add nonneg nonneg')
    · exact .inr ⟨add_nan first, given⟩
  · exact .inr ⟨nan_add second, given⟩

theorem of_le (isTime : IsTime reason first)
    (later : NumberUnless reason (first ≤ ·) second) : IsTime reason second := by
  rcases later with ordered | nan
  · rcases isTime with nonneg | ⟨rfl, -⟩
    · exact .inl (Arithmetic.LawfulOrder.trans nonneg ordered)
    · exact absurd rfl (le_iff.mp ordered).1
  · exact .inr nan

theorem add (isTime : IsTime reason first) (isTime' : IsTime reason second) :
    IsTime reason (first + second) :=
  isTime.of_le (isTime.le_add isTime')

theorem mul (nonneg : 0 ≤ first) (nonneg' : 0 ≤ second) (clash : Clash first second → reason) :
    IsTime reason (first * second) := by
  by_cases number : first * second = .nan
  · rcases mul_eq_nan number with notNumber | notNumber | factors
    · exact absurd notNumber (ne_nan_of_nonneg nonneg)
    · exact absurd notNumber (ne_nan_of_nonneg nonneg')
    · exact .inr ⟨number, clash factors⟩
  · exact .inl (mul_nonneg nonneg nonneg' number)

end IsTime

/-! ## Volumes and pans -/

/-- Volume and pan as they pass down: a pan is always a number. -/
structure Mix.Within (reason : Prop) (mix : Mix Float) : Prop where
  volume : mix.volume = .nan → reason
  pan : mix.pan ≠ .nan

namespace Mix

variable {reason : Prop} {mix : Mix Float}

theorem within_neutral : (neutral : Mix Float).Within reason := by
  refine ⟨fun volume => ?_, ne_nan_of_isFinite isFinite_zero⟩
  exact absurd volume (ne_nan_of_isFinite isFinite_one)

theorem Within.nest (within : mix.Within reason) {bindings : Variables Float}
    (finite : bindings.Finite) {arguments : MixArguments}
    (volumes : ∀ value ∈ arguments.volume, value.Finite)
    (pans : ∀ value ∈ arguments.pan, value.Finite)
    (clash : Clash mix.volume (resolveOr bindings 1 arguments.volume) → reason) :
    (mix.nest bindings arguments).Within reason where
  volume := by
    intro product
    have factor := finite.resolveOr isFinite_one volumes
    rcases mul_eq_nan product with outer | own | factors
    · exact within.volume outer
    · exact absurd own (ne_nan_of_isFinite factor)
    · exact clash factors
  pan := by
    have term := finite.resolveOr isFinite_zero pans
    exact add_ne_nan within.pan (ne_nan_of_isFinite term) (.inr term)

theorem Within.heardVolume (within : mix.Within reason) {own : Float} (finite : own.isFinite = true)
    (clash : Clash own mix.volume → reason) :
    NumberUnless reason (fun volume => 0 ≤ volume ∧ volume ≤ 1) (mix.heardVolume own) := by
  by_cases number : own * mix.volume = .nan
  · refine .inr ⟨?_, ?_⟩
    · rw [Mix.heardVolume, number]
      exact Arithmetic.LawfulOrder.clamp_of_not_number fun same => le_self_iff.mp same rfl
    · rcases mul_eq_nan number with nan | nan | factors
      · exact absurd nan (ne_nan_of_isFinite finite)
      · exact within.volume nan
      · exact clash factors
  · exact .inl (Arithmetic.LawfulOrder.clamp_bounds (by decide +kernel) (le_self_iff.mpr number))

theorem Within.heardPan (within : mix.Within reason) {own : Float} (finite : own.isFinite = true) :
    -1 ≤ mix.heardPan own ∧ mix.heardPan own ≤ 1 := by
  have number : own + mix.pan ≠ .nan :=
    add_ne_nan (ne_nan_of_isFinite finite) within.pan (.inl finite)
  exact Arithmetic.LawfulOrder.clamp_bounds (by decide +kernel) (le_self_iff.mpr number)

end Mix

/-! ## Requests -/

def Extent.Within (reason : Prop) (start : Float) : Extent Float → Prop
  | .instant => True
  | .lasting duration => IsTime reason duration
  | .upTo finish => NumberUnless reason (start ≤ ·) finish

/-- The bounds of a request, with the reasons for its times and its volume not to be numbers. -/
structure Request.Within (times volumes : Prop) (request : Request Float) : Prop where
  start : IsTime times request.start
  extent : request.extent.Within times request.start
  volume : NumberUnless volumes (fun volume => 0 ≤ volume ∧ volume ≤ 1) request.volume
  pan : -1 ≤ request.pan ∧ request.pan ≤ 1

/-! ## Factors -/

/-- The beats that an action lasts for. -/
def Action.beats? : Action → Option Value
  | .tone arguments => some arguments.beats
  | .slide arguments => some arguments.beats
  | .wait beats => some beats
  | _ => none

variable {β : Type}

namespace Run

/-- What an action multiplies to get its length. -/
def lengthFactors? (run : Run Float β) (action : Action) : Option (Float × Float) :=
  action.beats?.map fun beats =>
    (Arithmetic.larger (run.resolve beats) 0, run.state.tempo.beat)

/-- What an action multiplies to get a volume, to be heard or to be passed on. -/
def volumeFactors? (program : Program) (settings : Settings) (run : Run Float β) (mix : Mix Float) :
    Action → Option (Float × Float)
  | .sample arguments =>
    if (program.customSample? arguments.name).isSome then none
    else some (own arguments.volume, mix.volume)
  | .tone arguments => some (own arguments.volume, mix.volume)
  | .slide arguments => some (own arguments.volume, mix.volume)
  | .play _ arguments => some (mix.volume, Mix.resolveOr run.state.bindings 1 arguments.volume)
  | .loop _ names arguments =>
    if names.any fun name => (program.block? name).isNone then none
    else some (mix.volume, Mix.resolveOr run.state.bindings 1 arguments.volume)
  | _ => none
where
  own := Mix.resolveOr run.state.bindings settings.defaultVolume

theorem lengthFactors?_eq {run after : Run Float β} (same : after.state = run.state)
    (action : Action) : after.lengthFactors? action = run.lengthFactors? action := by
  simp only [lengthFactors?, resolve, same]

theorem volumeFactors?_eq {run after : Run Float β} (same : after.state = run.state)
    (program : Program) (settings : Settings) (mix : Mix Float) (action : Action) :
    after.volumeFactors? program settings mix action =
      run.volumeFactors? program settings mix action := by
  cases action <;> simp only [volumeFactors?, volumeFactors?.own, same]

end Run

/-- The factors, if there are any, clash. -/
def Clashing (factors : Option (Float × Float)) : Prop := ∃ pair ∈ factors, Clash pair.1 pair.2

theorem clashing_some {left right : Float} : Clashing (some (left, right)) ↔ Clash left right := by
  simp [Clashing]

namespace Machine

/-- The next step multiplies beats and their duration, the one zero and the other infinite. -/
def LengthsClash (machine : Machine Float β) : Prop :=
  ∃ command offset mix, machine.task = .command command offset mix ∧
    Clashing (machine.run.lengthFactors? command.action)

/-- The next step multiplies two volumes, the one zero and the other infinite. -/
def VolumesClash (program : Program) (settings : Settings) (machine : Machine Float β) : Prop :=
  ∃ command offset mix, machine.task = .command command offset mix ∧
    Clashing (machine.run.volumeFactors? program settings mix command.action)

end Machine

end Sequencer
