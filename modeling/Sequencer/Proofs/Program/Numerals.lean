import Sequencer.Mix
import Sequencer.Proofs.Number.Literal

/-! # The numbers of a score

A token is a literal only if it is finite, so that every number in a command is. Variables are set to
what such values resolve to, and stay finite as well.
-/

namespace Sequencer

/-! ## Values -/

def Value.Finite : Value → Prop
  | .number value _ => value.isFinite = true
  | .named _ => True

theorem Value.finite_ofToken (token : String) : (ofToken token).Finite := by
  rw [ofToken]
  cases read : Number.readLiteral? token with
  | some value => exact Number.isFinite_of_readLiteral? read
  | none => trivial

theorem Action.finite_one : one.Finite := Number.isFinite_one

namespace Arguments

variable (arguments : Arguments) (keys : List String) (position : Nat)

theorem finite_value? : ∀ value ∈ arguments.value? keys position, value.Finite := by
  rintro value member
  obtain ⟨token, -, rfl⟩ := Option.map_eq_some_iff.mp member
  exact Value.finite_ofToken token

theorem finite_keyedValue? : ∀ value ∈ arguments.keyedValue? keys, value.Finite := by
  rintro value member
  obtain ⟨token, -, rfl⟩ := Option.map_eq_some_iff.mp member
  exact Value.finite_ofToken token

theorem finite_getD : ((arguments.value? keys position).getD Action.one).Finite := by
  cases given : arguments.value? keys position with
  | some value => exact arguments.finite_value? keys position value given
  | none => exact Action.finite_one

end Arguments

/-! ## Actions -/

namespace Action

def mixValues (volume pan : Option Value) : List Value := volume.toList ++ pan.toList

/-- The numeric arguments of an action. -/
def values : Action → List Value
  | .sample arguments =>
    arguments.pitch :: arguments.timescale :: mixValues arguments.volume arguments.pan
  | .tone arguments =>
    arguments.pitch :: arguments.beats :: mixValues arguments.volume arguments.pan
  | .slide arguments =>
    arguments.source :: arguments.target :: arguments.beats ::
      mixValues arguments.volume arguments.pan
  | .wait beats => [beats]
  | .bpm value => [value]
  | .play _ mix => mixValues mix.volume mix.pan
  | .loop count _ mix => count :: mixValues mix.volume mix.pan
  | .set _ value => [value]
  | .effect given _ => given.parameters.map Parameter.value
  | .invalid _ | .unknown => []

theorem finite_mixValues {volume pan : Option Value} :
    (∀ value ∈ mixValues volume pan, value.Finite) ↔
      (∀ value ∈ volume, value.Finite) ∧ ∀ value ∈ pan, value.Finite := by
  simp only [mixValues, List.forall_mem_append, Option.mem_toList, Option.mem_def]

theorem finite_ofArguments (arguments : Arguments) (verb : Verb) :
    ∀ value ∈ (ofArguments arguments verb).values, value.Finite := by
  have fields := arguments.finite_value?
  have keyed := arguments.finite_keyedValue?
  have filled := arguments.finite_getD
  have none : ∀ value ∈ ([] : List Value), value.Finite := by simp
  cases verb with
  | sample =>
    rw [ofArguments, ofSample]
    split
    · exact List.forall_mem_cons.mpr ⟨filled _ _, List.forall_mem_cons.mpr ⟨filled _ _,
        finite_mixValues.mpr ⟨fields _ _, fields _ _⟩⟩⟩
    · exact none
  | tone =>
    rw [ofArguments, ofTone]
    split
    · exact List.forall_mem_cons.mpr ⟨Value.finite_ofToken _, List.forall_mem_cons.mpr ⟨filled _ _,
        finite_mixValues.mpr ⟨fields _ _, fields _ _⟩⟩⟩
    · exact none
  | slide =>
    rw [ofArguments, ofSlide]
    split
    · next given =>
      exact List.forall_mem_cons.mpr ⟨Value.finite_ofToken _, List.forall_mem_cons.mpr
        ⟨Value.finite_ofToken _, List.forall_mem_cons.mpr ⟨fields _ _ _ given,
          finite_mixValues.mpr ⟨fields _ _, fields _ _⟩⟩⟩⟩
    · exact none
    · exact none
  | wait | bpm =>
    rw [ofArguments]
    cases given : arguments.value? [] 0 with
    | none => exact none
    | some value => exact List.forall_mem_singleton.mpr (fields _ _ _ given)
  | play =>
    rw [ofArguments, ofPlay]
    split
    · exact none
    · exact finite_mixValues.mpr ⟨keyed _, keyed _⟩
  | loop =>
    rw [ofArguments, ofLoop]
    split
    · exact none
    · exact none
    · exact List.forall_mem_cons.mpr ⟨Value.finite_ofToken _,
        finite_mixValues.mpr ⟨keyed _, keyed _⟩⟩
  | set =>
    rw [ofArguments, ofSet]
    split
    · exact List.forall_mem_singleton.mpr (Value.finite_ofToken _)
    · exact none
  | effect =>
    rw [ofArguments, ofEffect]
    split
    · intro value member
      obtain ⟨parameter, given, rfl⟩ := List.mem_map.mp member
      -- parameters without a key come first
      rcases List.mem_append.mp given with positional | keyed
      · obtain ⟨word, -, rfl⟩ := List.mem_map.mp positional
        exact Value.finite_ofToken word
      · obtain ⟨⟨key, word⟩, -, rfl⟩ := List.mem_map.mp keyed
        exact Value.finite_ofToken word
    · exact none

end Action

theorem Command.finite_values (command : Command) :
    ∀ value ∈ command.action.values, value.Finite := by
  rw [command.action_eq, Action.ofWords]
  split
  · exact Action.finite_ofArguments _ _
  · simp [Action.values]

/-! ## Variables -/

namespace Variables

def Finite (bindings : Variables Float) : Prop :=
  ∀ entry ∈ bindings.entries, entry.2.isFinite = true

variable {bindings : Variables Float}

theorem finite_empty : (empty : Variables Float).Finite := by
  simp [Finite, empty]

theorem Finite.set (finite : bindings.Finite) (name : String) {value : Float}
    (own : value.isFinite = true) : (bindings.set name value).Finite := by
  rintro entry member
  rcases List.mem_cons.mp member with rfl | kept
  · exact own
  · exact finite entry (List.mem_filter.mp kept).1

theorem Finite.get? (finite : bindings.Finite) {name : String} {value : Float}
    (found : bindings.get? name = some value) : value.isFinite = true := by
  obtain ⟨before, after, split, -⟩ := List.lookup_eq_some_iff.mp found
  exact finite (name, value) (by simp [split])

theorem Finite.resolve (finite : bindings.Finite) {value : Value} (own : value.Finite) :
    (bindings.resolve value).isFinite = true := by
  cases value with
  | number value token =>
    rw [Variables.resolve]
    cases found : bindings.get? token with
    | some bound => exact finite.get? found
    | none => exact own
  | named name =>
    rw [Variables.resolve]
    cases found : bindings.get? name with
    | some bound => exact finite.get? found
    | none => exact Number.isFinite_zero

theorem Finite.resolveOr (finite : bindings.Finite) {default : Float}
    (finiteDefault : default.isFinite = true) {value : Option Value}
    (own : ∀ given ∈ value, given.Finite) :
    (Mix.resolveOr bindings default value).isFinite = true := by
  cases value with
  | some given => exact finite.resolve (own given rfl)
  | none => exact finiteDefault

end Variables

end Sequencer
