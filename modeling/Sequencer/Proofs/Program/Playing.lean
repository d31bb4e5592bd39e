import Sequencer.Command.Basic

/-! # Commands that only play

A command that names blocks and says nothing else about them passes its mix on as it is.
-/

namespace Sequencer

theorem Arguments.ofWords_unkeyed {words : List String}
    (unkeyed : ∀ word ∈ words, splitKey word = none) :
    Arguments.ofWords words = { positional := words, keyed := [] } := by
  have positional : words.filter (fun word => (splitKey word).isNone) = words :=
    List.filter_eq_self.mpr fun word member => by rw [unkeyed word member, Option.isNone_none]
  have keyed : words.filterMap splitKey = [] := List.filterMap_eq_nil_iff.mpr unkeyed
  rw [Arguments.ofWords, positional, keyed]

/-- What a known verb says is up to its arguments. -/
theorem Action.ofWords_cons {first : String} {verb : Verb} (known : Verb.ofWord? first = some verb)
    (rest : List String) : ofWords (first :: rest) = ofArguments (.ofWords rest) verb := by
  simp only [ofWords, verbOfWords, List.headD_cons, known, List.tail_cons]

namespace Command

variable {command : Command} {count : String} {names : List String}

/-- Where no argument is keyed no key is ignored. -/
theorem ignoredKeys_of_unkeyed (unkeyed : ∀ word ∈ command.words.tail, splitKey word = none) :
    command.ignoredKeys = [] := by
  rw [command.ignoredKeys_eq, Action.ignoredKeys, Arguments.ofWords_unkeyed unkeyed]
  cases Verb.ofWord? (Action.verbOfWords command.words) <;> rfl

/-- A command that is exactly the word `play` and the names of blocks. -/
structure PlaysAll (command : Command) (names : List String) : Prop where
  words : command.words = "play" :: names
  named : names ≠ []
  unkeyed : ∀ word ∈ names, splitKey word = none

/-- A command that is exactly the word `loop`, a count and the names of blocks. -/
structure Loops (command : Command) (count : String) (names : List String) : Prop where
  words : command.words = "loop" :: count :: names
  named : names ≠ []
  unkeyed : ∀ word ∈ count :: names, splitKey word = none

theorem PlaysAll.action (plays : command.PlaysAll names) :
    command.action = .play names { volume := none, pan := none } := by
  obtain ⟨name, rest, rfl⟩ := List.exists_cons_of_ne_nil plays.named
  have known : Verb.ofWord? "play" = some .play := rfl
  rw [command.action_eq, plays.words, Action.ofWords_cons known,
    Arguments.ofWords_unkeyed plays.unkeyed]
  rfl

theorem PlaysAll.ignoredKeys (plays : command.PlaysAll names) : command.ignoredKeys = [] :=
  ignoredKeys_of_unkeyed (by simpa [plays.words] using plays.unkeyed)

theorem Loops.action (loops : command.Loops count names) :
    command.action = .loop (.ofToken count) names { volume := none, pan := none } := by
  obtain ⟨name, rest, rfl⟩ := List.exists_cons_of_ne_nil loops.named
  have known : Verb.ofWord? "loop" = some .loop := rfl
  rw [command.action_eq, loops.words, Action.ofWords_cons known,
    Arguments.ofWords_unkeyed loops.unkeyed]
  rfl

theorem Loops.ignoredKeys (loops : command.Loops count names) : command.ignoredKeys = [] :=
  ignoredKeys_of_unkeyed (by simpa [loops.words] using loops.unkeyed)

end Command

end Sequencer
