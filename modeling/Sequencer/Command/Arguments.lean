import Sequencer.Effect

/-!
# Arguments

After its verb a command has arguments of two sorts. A word with an equals sign after a key is
keyed; every other word is positional, also one that starts with the sign. A field is looked up by
key first, the last occurrence counting, and by its position among the positional words second.
-/

namespace Sequencer

/-- Cuts a word at its first equals sign, unless nothing stands before it. -/
def splitKey (word : String) : Option (String × String) :=
  let (key, rest) := word.toList.span (· != '=')
  match key, rest with
  | _ :: _, _ :: value => some (String.ofList key, String.ofList value)
  | _, _ => none

example : splitKey "pan=0.5" = some ("pan", "0.5") ∧ splitKey "a=b=c" = some ("a", "b=c") := by
  decide +kernel
example : splitKey "=1" = none ∧ splitKey "kick" = none := by decide +kernel

structure Arguments where
  positional : List String
  keyed : List (String × String)

namespace Arguments

def ofWords (words : List String) : Arguments :=
  { positional := words.filter fun word => (splitKey word).isNone
    keyed := words.filterMap splitKey }

/-- What the last argument with one of the keys holds. -/
def keyed? (arguments : Arguments) (keys : List String) : Option String :=
  (arguments.keyed.reverse.find? fun (key, _) => keys.contains key).map Prod.snd

/-- What a field with the given keys and position holds. -/
def field? (arguments : Arguments) (keys : List String) (position : Nat) : Option String :=
  (arguments.keyed? keys).or arguments.positional[position]?

def value? (arguments : Arguments) (keys : List String) (position : Nat) : Option Value :=
  (arguments.field? keys position).map Value.ofToken

def keyedValue? (arguments : Arguments) (keys : List String) : Option Value :=
  (arguments.keyed? keys).map Value.ofToken

end Arguments

end Sequencer
