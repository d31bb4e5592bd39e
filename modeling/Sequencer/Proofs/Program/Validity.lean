import Sequencer.Program.Validation
import Sequencer.Proofs.Program.Legible

/-! # What validation says of commands

Validation counts the words of a command, and the command itself counts what its words supply: keyed
words are no names and no pitches. So a valid command can still be faulty, and it is exactly when it
is `Short` of positional words. A number is never keyed, so that `wait` and `bpm` are not concerned.
-/

namespace Sequencer

/-! ## Literals are positional -/

namespace Number

/-- No sign is an equals sign. -/
theorem mem_splitSign {text : List Char} (mark : '=' ∈ text) : '=' ∈ (splitSign text).2 := by
  rw [splitSign.eq_def]
  split
  · simpa using mark
  · simpa using mark
  · exact mark

/-- No digit is one. -/
theorem mem_splitDigits {text : List Char} (mark : '=' ∈ text) : '=' ∈ (splitDigits text).2 := by
  have split : '=' ∈ text.takeWhile Char.isDigit ++ text.dropWhile Char.isDigit := by
    rwa [List.takeWhile_append_dropWhile]
  rw [splitDigits, List.span_eq_takeWhile_dropWhile]
  rcases List.mem_append.mp split with digit | rest
  · exact absurd (List.mem_takeWhile_imp digit) (by decide)
  · exact rest

theorem mem_splitFraction {text : List Char} (mark : '=' ∈ text) :
    '=' ∈ (splitFraction text).2 := by
  rw [splitFraction.eq_def]
  split
  · exact mem_splitDigits (by simpa using mark)
  · exact mark

theorem readExponent?_eq_none {text : List Char} (mark : '=' ∈ text) :
    readExponent? text = none := by
  cases text with
  | nil => cases mark
  | cons first rest =>
    rw [readExponent?]
    refine if_neg fun holds => ?_
    simp only [Bool.and_eq_true, Bool.or_eq_true, beq_iff_eq, List.all_eq_true] at holds
    obtain ⟨⟨letter, -⟩, digits⟩ := holds
    rcases List.mem_cons.mp mark with same | later
    · subst same
      simp at letter
    · exact absurd (digits '=' (mem_splitSign later)) (by decide)

/-- A number has no equals sign in it. -/
theorem not_mem_of_read? {text : List Char} {decimal : Decimal}
    (read : Decimal.read? text = some decimal) : '=' ∉ text := by
  intro mark
  have exponent := readExponent?_eq_none
    (mem_splitFraction (mem_splitDigits (mem_splitSign mark)))
  rw [Decimal.read?] at read
  dsimp only at read
  rw [exponent] at read
  simp at read

end Number

theorem splitKey_of_readLiteral? {word : String} {value : Float}
    (read : Number.readLiteral? word = some value) : splitKey word = none := by
  rw [Number.readLiteral?] at read
  obtain ⟨mapped, -⟩ := Option.filter_eq_some_iff.mp read
  obtain ⟨decimal, digits, -⟩ := Option.map_eq_some_iff.mp mapped
  exact splitKey_eq_none (Number.not_mem_of_read? digits)

/-! ## Faults -/

/-- How much of what a verb needs is there: the positional words, and the length of a slide if it is
keyed. -/
def Arguments.supplied (arguments : Arguments) : Verb → Nat
  | .slide =>
    arguments.positional.length + if (arguments.keyed? Verb.beatsKey).isSome then 1 else 0
  | _ => arguments.positional.length

theorem Arguments.value?_nil (arguments : Arguments) (position : Nat) :
    arguments.value? [] position = (arguments.positional[position]?).map Value.ofToken := by
  have unkeyed : arguments.keyed? [] = none := by simp [keyed?, List.find?_eq_none]
  rw [value?, field?, unkeyed, Option.none_or]

open Verb in
/-- A command is at fault exactly when less is there than its verb needs. -/
theorem Action.invalid_iff (arguments : Arguments) (verb : Verb) :
    (∃ fault, ofArguments arguments verb = .invalid fault) ↔
      arguments.supplied verb < verb.leastArguments := by
  obtain ⟨positional, keyed⟩ := arguments
  cases verb with
  | sample => cases positional <;> simp [ofArguments, ofSample, Arguments.supplied, leastArguments]
  | tone => cases positional <;> simp [ofArguments, ofTone, Arguments.supplied, leastArguments]
  | play => cases positional <;> simp [ofArguments, ofPlay, Arguments.supplied, leastArguments]
  | wait | bpm =>
    cases positional <;>
      simp [ofArguments, Arguments.value?_nil, Arguments.supplied, leastArguments]
  | loop =>
    rcases positional with _ | ⟨count, _ | ⟨block, rest⟩⟩ <;>
      simp [ofArguments, ofLoop, Arguments.supplied, leastArguments]
  | set =>
    rcases positional with _ | ⟨name, _ | ⟨value, rest⟩⟩ <;>
      simp [ofArguments, ofSet, Arguments.supplied, leastArguments]
  | effect =>
    rcases positional with _ | ⟨kind, _ | ⟨block, rest⟩⟩ <;>
      simp [ofArguments, ofEffect, Arguments.supplied, leastArguments]
  | slide =>
    have length : (if (Arguments.keyed? ⟨positional, keyed⟩ beatsKey).isSome then 1 else 0) ≤ 1 := by
      split <;> decide
    rcases positional with _ | ⟨source, _ | ⟨target, rest⟩⟩
    · refine iff_of_true ⟨.slidePitches, by simp [ofArguments, ofSlide]⟩ ?_
      simp only [Arguments.supplied, leastArguments, List.length_nil]
      omega
    · refine iff_of_true ⟨.slidePitches, by simp [ofArguments, ofSlide]⟩ ?_
      simp only [Arguments.supplied, leastArguments, List.length_singleton]
      omega
    · -- the length is keyed, or it is the third positional word
      cases held : Arguments.keyed? ⟨source :: target :: rest, keyed⟩ beatsKey <;>
        cases rest <;>
        simp [ofArguments, ofSlide, Arguments.value?, Arguments.field?, Arguments.supplied,
          leastArguments, held]

theorem Action.ofArguments_ne_unknown (arguments : Arguments) (verb : Verb) :
    ofArguments arguments verb ≠ .unknown := by
  cases verb with
  | sample | tone | slide | play | loop | set | effect =>
    simp only [ofArguments, ofSample, ofTone, ofSlide, ofPlay, ofLoop, ofSet, ofEffect]
    split <;> simp
  | wait | bpm =>
    rw [ofArguments]
    cases arguments.value? [] 0 <;> simp

/-- An argument that validation takes for a number is positional. -/
theorem Diagnostic.positional_of_number {verb : Verb} (number : verb = .wait ∨ verb = .bpm)
    {word : String} (valid : ofArgument verb word = none) : splitKey word = none := by
  cases read : Number.readLiteral? word with
  | some value => exact splitKey_of_readLiteral? read
  | none => rcases number with rfl | rfl <;> simp [ofArgument, read] at valid

/-! ## Valid programs -/

namespace Command

/-- Enough words, but some of them are keyed, and what is left is too little. -/
structure Short (command : Command) (verb : Verb) : Prop where
  known : Verb.ofWord? command.verb = some verb
  enough : verb.leastArguments ≤ command.words.tail.length
  short : (Arguments.ofWords command.words.tail).supplied verb < verb.leastArguments
  notNumber : verb ≠ .wait ∧ verb ≠ .bpm

/-- Where validation finds nothing there is a verb with enough words after it. -/
theorem exists_verb_of_valid {command : Command} (nonempty : command.words ≠ [])
    (valid : Diagnostic.ofWords? command.words = none) :
    ∃ verb, Verb.ofWord? command.verb = some verb ∧
      verb.leastArguments ≤ command.words.tail.length ∧
      command.words.tail.head?.bind (Diagnostic.ofArgument verb) = none := by
  obtain ⟨first, rest, words⟩ := List.exists_cons_of_ne_nil nonempty
  rw [Command.verb, Action.verbOfWords, words]
  rw [words, Diagnostic.ofWords?] at valid
  cases found : Verb.ofWord? first with
  | none => simp [found] at valid
  | some verb =>
    rw [found] at valid
    dsimp only at valid
    split at valid
    · cases valid
    · next enough => exact ⟨verb, found, Nat.le_of_not_lt enough, valid⟩

/-- A command in which validation finds nothing is known, and it is at fault exactly when it is
short. -/
theorem faulty_iff_of_valid {command : Command} (nonempty : command.words ≠ [])
    (valid : Diagnostic.ofWords? command.words = none) :
    command.action ≠ .unknown ∧
      ((∃ fault, command.action = .invalid fault) ↔ ∃ verb, command.Short verb) := by
  obtain ⟨verb, known, enough, first⟩ := exists_verb_of_valid nonempty valid
  have action : command.action = Action.ofArguments (.ofWords command.words.tail) verb := by
    rw [Command.verb] at known
    simp only [command.action_eq, Action.ofWords, known]
  rw [action]
  refine ⟨Action.ofArguments_ne_unknown _ verb, ?_⟩
  rw [Action.invalid_iff]
  constructor
  · intro short
    refine ⟨verb, known, enough, short, ?_⟩
    -- the first argument of a wait or a tempo is a number, and there need be no other
    rw [← not_or]
    intro number
    have positive : 0 < command.words.tail.length := by
      rcases number with rfl | rfl <;> exact enough
    obtain ⟨word, rest, arguments⟩ := List.exists_cons_of_length_pos positive
    rw [arguments] at first short
    have positional := Diagnostic.positional_of_number number first
    rcases number with rfl | rfl <;>
      simp [Arguments.supplied, Arguments.ofWords, positional, Verb.leastArguments] at short
  · rintro ⟨other, short⟩
    obtain rfl : verb = other := Option.some.inj (known.symm.trans short.known)
    exact short.short

end Command

namespace Program

theorem ofWords?_eq_none_of_isValid {program : Program} (valid : program.isValid = true)
    {command : Command} (member : command ∈ program.commands) :
    Diagnostic.ofWords? command.words = none := by
  rw [isValid, List.isEmpty_iff, diagnostics, List.filterMap_eq_nil_iff] at valid
  exact Option.map_eq_none_iff.mp (valid command member)

/-- In a valid program that was read from a source. -/
theorem faulty_iff_of_isValid {source : String} (valid : (read source).isValid = true)
    {command : Command} (member : command ∈ (read source).commands) :
    command.action ≠ .unknown ∧
      ((∃ fault, command.action = .invalid fault) ↔ ∃ verb, command.Short verb) :=
  Command.faulty_iff_of_valid ((read_legible source).commands command member).nonempty
    (ofWords?_eq_none_of_isValid valid member)

end Program

end Sequencer
