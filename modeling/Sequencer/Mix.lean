import Sequencer.Command.Basic
import Sequencer.Variables

/-!
# Mixes

Volume and pan as they pass down from enclosing commands: volumes multiply and pans add up. Only
what is heard in the end is kept within bounds.
-/

namespace Sequencer

structure Mix (α : Type) where
  volume : α
  pan : α

namespace Mix

variable {α : Type} [Arithmetic α]

def neutral : Mix α := { volume := 1, pan := 0 }

/-- What a value resolves to, or a number in place of an absent one. -/
def resolveOr (bindings : Variables α) (default : α) (value : Option Value) : α :=
  (value.map bindings.resolve).getD default

def nest (outer : Mix α) (bindings : Variables α) (arguments : MixArguments) : Mix α :=
  { volume := outer.volume * resolveOr bindings 1 arguments.volume
    pan := outer.pan + resolveOr bindings 0 arguments.pan }

def heardVolume (mix : Mix α) (own : α) : α := Arithmetic.clamp 0 1 (own * mix.volume)

def heardPan (mix : Mix α) (own : α) : α :=
  Arithmetic.clamp (Arithmetic.ofDouble (-1)) 1 (own + mix.pan)

end Mix

end Sequencer
