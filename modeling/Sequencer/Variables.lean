import Sequencer.Arithmetic
import Sequencer.Value

/-!
# Variables

Names that have been set, each with its latest number.
-/

namespace Sequencer

structure Variables (α : Type) where
  entries : List (String × α)

namespace Variables

variable {α : Type}

def empty : Variables α := { entries := [] }

def get? (bindings : Variables α) (name : String) : Option α := bindings.entries.lookup name

def set (bindings : Variables α) (name : String) (value : α) : Variables α :=
  { entries := (name, value) :: bindings.entries.filter fun entry => entry.1 != name }

def size (bindings : Variables α) : Nat := bindings.entries.length

/-- A variable named like the token comes first, the literal second; any other name is zero. -/
def resolve [Arithmetic α] (bindings : Variables α) : Value → α
  | .number value token => (bindings.get? token).getD (Arithmetic.ofDouble value)
  | .named name => (bindings.get? name).getD 0

end Variables

end Sequencer
