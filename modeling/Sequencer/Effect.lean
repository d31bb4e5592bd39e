import Sequencer.Value

/-!
# Effects

An effect is named by its kind and carries parameters, positional or keyed. What a parameter holds
depends on where the effect stands: values in a command, numbers once it is recorded.
-/

namespace Sequencer

structure Parameter (α : Type) where
  key : Option String
  value : α

structure Effect (α : Type) where
  kind : String
  parameters : List (Parameter α)

namespace Parameter

def map {α β : Type} (convert : α → β) (parameter : Parameter α) : Parameter β :=
  { key := parameter.key, value := convert parameter.value }

def text (parameter : Parameter Float) : String :=
  match parameter.key with
  | some key => key ++ "=" ++ Number.text parameter.value
  | none => Number.text parameter.value

def same (left right : Parameter Float) : Bool :=
  left.key == right.key && left.value == right.value

end Parameter

namespace Effect

def map {α β : Type} (convert : α → β) (effect : Effect α) : Effect β :=
  { kind := effect.kind, parameters := effect.parameters.map (Parameter.map convert) }

/-- An effect as a header annotates it. -/
def text (effect : Effect Float) : String :=
  "(" ++ " ".intercalate (effect.kind :: effect.parameters.map Parameter.text) ++ ")"

def same (left right : Effect Float) : Bool :=
  left.kind == right.kind && left.parameters.isEqv right.parameters Parameter.same

end Effect

end Sequencer
