import Sequencer.Proofs.Program.Legible
import Sequencer.Proofs.Program.Playing
import Sequencer.Proofs.Program.Reachable
import Sequencer.Proofs.Run.Idle
import Sequencer.Proofs.Run.Machine

/-! # Asking for definitions by name

A header takes any word for a name, and a command takes a word with a key in it for a keyed argument.
So a definition is asked for by its name where that is positional, and by nothing at all where it is
not: `declared_name_is_asked_for`.
-/

namespace Sequencer

/-! ## Positional words -/

/-- There is an equals sign at the start of the word, or none at all. -/
def Positional (word : String) : Prop := '=' ∈ word.toList → word.toList.head? = some '='

instance instDecidablePositional (word : String) : Decidable (Positional word) :=
  inferInstanceAs (Decidable ('=' ∈ word.toList → word.toList.head? = some '='))

theorem splitKey_eq_none_iff {word : String} : splitKey word = none ↔ Positional word := by
  constructor
  · intro unsplit marked
    obtain ⟨key, value, whole, noMark⟩ := List.eq_append_cons_of_mem marked
    cases key with
    | nil => simp [whole]
    | cons first key =>
      -- up to its first mark the word would be a key
      have split : splitKey (String.ofList (first :: key ++ '=' :: value)) = _ :=
        splitKey_append (List.cons_ne_nil first key) noMark
      rw [← whole, String.ofList_toList, unsplit] at split
      cases split
  · intro positional
    cases split : splitKey word with
    | none => rfl
    | some pair =>
      obtain ⟨whole, nonempty, noMark⟩ := splitKey_some split
      obtain ⟨first, key, keyed⟩ := List.exists_cons_of_ne_nil nonempty
      rw [keyed] at noMark
      -- the first character of a key would have to be the mark itself
      have head := positional (by simp [whole])
      rw [whole, keyed, List.cons_append, List.head?_cons] at head
      obtain rfl := Option.some.inj head
      exact absurd List.mem_cons_self noMark

theorem Arguments.positional_of_mem {words : List String} {word : String}
    (member : word ∈ (Arguments.ofWords words).positional) : Positional word := by
  obtain ⟨-, unsplit⟩ := List.mem_filter.mp member
  exact splitKey_eq_none_iff.mp (Option.isNone_iff_eq_none.mp unsplit)

/-! ## What a command asks for -/

namespace Action

theorem mem_positional_of_names {arguments : Arguments} {verb : Verb} {key : Kind × String}
    (named : key ∈ (ofArguments arguments verb).names) : key.2 ∈ arguments.positional := by
  cases verb with
  | sample =>
    rw [ofArguments, ofSample] at named
    split at named
    · next name rest given =>
      obtain rfl := List.mem_singleton.mp named
      simp [given]
    · cases named
  | play =>
    rw [ofArguments, ofPlay] at named
    split at named
    · cases named
    · obtain ⟨name, member, rfl⟩ := List.mem_map.mp named
      exact member
  | loop =>
    rw [ofArguments, ofLoop] at named
    split at named
    · cases named
    · cases named
    · next count blocks _ given =>
      obtain ⟨name, member, rfl⟩ := List.mem_map.mp named
      rw [given]
      exact List.mem_cons_of_mem _ member
  | wait | bpm =>
    rw [ofArguments] at named
    cases given : arguments.value? [] 0 <;> simp [given, names] at named
  | tone | slide | set | effect =>
    simp only [ofArguments, ofTone, ofSlide, ofSet, ofEffect] at named
    split at named <;> cases named

/-- Commands ask by positional words. -/
theorem positional_of_names {words : List String} {key : Kind × String}
    (named : key ∈ (ofWords words).names) : Positional key.2 := by
  rw [ofWords] at named
  split at named
  · exact Arguments.positional_of_mem (mem_positional_of_names named)
  · cases named

/-- Asks for one definition, and says nothing else about it. -/
def asking : Kind → String → Action
  | .block, name => .play [name] { volume := none, pan := none }
  | .customSample, name =>
    .sample { name, pitch := one, timescale := one, volume := none, pan := none }

end Action

/-- The verb that asks for definitions of a kind. -/
def Kind.verb : Kind → String
  | .block => "play"
  | .customSample => "sample"

theorem Kind.isWord_verb (kind : Kind) : Text.IsWord kind.verb.toList := by
  cases kind <;> simp [verb, Text.IsWord, Text.isInk, Text.isBlank, Text.blankRanges]

namespace Command

/-- The command that a line with a verb and a name is. -/
def asking (line : Nat) (kind : Kind) (name : String) : Command :=
  .ofText line (kind.verb ++ " " ++ name).toList

theorem words_asking (line : Nat) (kind : Kind) {name : String} (isWord : Text.IsWord name.toList) :
    (asking line kind name).words = [kind.verb, name] := by
  have areWords : ∀ word ∈ [kind.verb.toList, name.toList], Text.IsWord word := by
    intro word member
    rcases List.mem_pair.mp member with rfl | rfl
    · exact kind.isWord_verb
    · exact isWord
  have written : (kind.verb ++ " " ++ name).toList =
      Text.joined [kind.verb.toList, name.toList] := by
    simp [Text.joined_cons, Text.spaced]
  change (Text.words (kind.verb ++ " " ++ name).toList).map String.ofList = _
  rw [written, Text.words_joined areWords]
  simp

variable {name : String} (isWord : Text.IsWord name.toList) (positional : Positional name)

include isWord positional

theorem action_asking (line : Nat) (kind : Kind) :
    (asking line kind name).action = .asking kind name := by
  have unkeyed : ∀ word ∈ [name], splitKey word = none := by
    simpa using splitKey_eq_none_iff.mpr positional
  rw [action_eq, words_asking line kind isWord]
  cases kind with
  | block =>
    change Action.ofPlay (.ofWords [name]) = _
    rw [Arguments.ofWords_unkeyed unkeyed]
    rfl
  | customSample =>
    change Action.ofSample (.ofWords [name]) = _
    rw [Arguments.ofWords_unkeyed unkeyed]
    rfl

theorem ignoredKeys_asking (line : Nat) (kind : Kind) : (asking line kind name).ignoredKeys = [] := by
  have unkeyed : ∀ word ∈ [name], splitKey word = none := by
    simpa using splitKey_eq_none_iff.mpr positional
  rw [ignoredKeys_eq, words_asking line kind isWord]
  cases kind with
  | block | customSample =>
    change ((Arguments.ofWords [name]).keyed.map Prod.fst).filter _ = _
    rw [Arguments.ofWords_unkeyed unkeyed]
    rfl

end Command

/-! ## Entering what is asked for -/

namespace Machine

open Run

variable {α β : Type} [Arithmetic α] [Device α β]

/-- The command at hand comes to the body of a definition, with nothing in between. -/
def Enters (program : Program) (settings : Settings) (command : Command) (kind : Kind)
    (definition : Definition) (run : Run α β) : Prop :=
  ∀ (offset : α) (mix : Mix α) (frames : List (Frame α)), ∃ within waiting,
    Reaches program settings { task := .command command offset mix, frames, run }
      { task := body kind definition offset within
        frames := .leave :: waiting
        run := (run.enter kind definition.name).record (entered kind definition offset) }

theorem enters_of_asking {program : Program} {settings : Settings} {command : Command} {kind : Kind}
    {definition : Definition} {run : Run α β}
    (found : Definitions.find? (program.definitions kind) definition.name = some definition)
    (action : command.action = .asking kind definition.name) (heeded : command.ignoredKeys = [])
    (enters : run.refusal? settings kind definition.name = none) :
    Enters program settings command kind definition run := by
  intro offset mix frames
  have ready : run.ignoreKeys command = run := by rw [ignoreKeys, heeded, List.foldl_nil]
  have first : Steps program settings { task := .command command offset mix, frames, run }
      (act program settings command offset mix frames run) := by
    have steps : Steps program settings _ _ := (Move.command command offset mix frames run).steps
    rwa [ready] at steps
  have entersBody : ∀ within waiting, Reaches program settings
      { task := .invoke kind definition offset within, frames := waiting, run } _ :=
    fun within waiting => (Move.entered offset within waiting enters).steps.reaches
  rw [act, action] at first
  cases kind with
  | block =>
    -- a fan-out over one block first puts what is left of it below
    have toBlock : Steps program settings _ _ := (Move.togetherNext definition.name [] offset
      (mix.nest run.state.bindings { volume := none, pan := none }) 0 frames run).steps
    exact ⟨_, _, first.reaches.trans (toBlock.reaches.trans
      ((Move.blockFound offset _ _ run found).steps.reaches.trans (entersBody _ _)))⟩
  | customSample =>
    have sampled : program.customSample? definition.name = some definition := found
    simp only [Action.asking, sampled] at first
    exact ⟨_, _, first.reaches.trans (entersBody _ _)⟩

/-- A declared definition with a positional name is what the command with that name asks for and
enters, where nothing is in progress and no limit is reached. No command asks for a definition with
another name. -/
theorem declared_name_is_asked_for (source : String) {kind : Kind} {definition : Definition}
    (declared : definition ∈ (Program.read source).definitions kind) :
    (Positional definition.name → ∀ line,
      (Command.asking line kind definition.name).action = .asking kind definition.name ∧
      (Command.asking line kind definition.name).ignoredKeys = [] ∧
      ∀ (settings : Settings) (run : Run α β), run.stack = [] → 0 < settings.maxDepth →
        run.invocations < settings.maxInvocations →
          Enters (Program.read source) settings (Command.asking line kind definition.name) kind
            definition run) ∧
    (¬ Positional definition.name →
      ∀ command : Command, (kind, definition.name) ∉ command.action.names) := by
  have legible := Program.read_legible source
  have isWord := (legible.definitions kind definition declared).name.isWord
  constructor
  · intro positional line
    have action := Command.action_asking isWord positional line kind
    have heeded := Command.ignoredKeys_asking isWord positional line kind
    refine ⟨action, heeded, fun settings run idle deep few => ?_⟩
    have found := Definitions.find?_of_mem (legible.distinct kind) declared
    have enters : run.refusal? settings kind definition.name = none := by
      rw [refusal?_eq_none_iff, idle]
      exact ⟨few, List.not_mem_nil, deep⟩
    exact enters_of_asking found action heeded enters
  · intro keyed command named
    rw [command.action_eq] at named
    exact keyed (Action.positional_of_names named)

/-- A custom sample with an equals sign at the start of its name, and a block with one further on. -/
def marked : String := "<=a=b>\ntone a4\n<end>\n[a=b]\nsample kick\n[end]\n"

theorem declared_name_is_asked_for_marked :
    (∃ definition ∈ (Program.read marked).definitions .customSample, definition.name = "=a=b" ∧
      Positional definition.name ∧
      Enters (Program.read marked) .standard (Command.asking 1 .customSample definition.name)
        .customSample definition
        (Run.start (.start 120 true) .empty #[] : Run Float (Timeline Float))) ∧
    ∃ definition ∈ (Program.read marked).definitions .block, definition.name = "a=b" ∧
      ¬ Positional definition.name ∧
        ∀ command : Command, (.block, definition.name) ∉ command.action.names := by
  have sample : ∃ definition ∈ (Program.read marked).definitions .customSample,
      definition.name = "=a=b" := by decide +kernel
  have block : ∃ definition ∈ (Program.read marked).definitions .block,
      definition.name = "a=b" := by decide +kernel
  obtain ⟨definition, declared, name⟩ := sample
  obtain ⟨definition', declared', name'⟩ := block
  have positional : Positional definition.name := name ▸ by decide +kernel
  have keyed : ¬ Positional definition'.name := name' ▸ by decide +kernel
  obtain ⟨-, -, enters⟩ := (declared_name_is_asked_for (α := Float) (β := Timeline Float) marked
    declared).1 positional 1
  refine ⟨⟨definition, declared, name, positional, enters .standard _ rfl ?_ ?_⟩,
    definition', declared', name', keyed,
    (declared_name_is_asked_for (α := Float) (β := Timeline Float) marked declared').2 keyed⟩
  · decide +kernel
  · decide +kernel

/-- The name of the block is taken for a keyed argument of the command that is to play it. -/
theorem keyed_name_is_not_asked_for :
    (∃ definition ∈ (Program.read "[a=b]\nsample kick\n[end]\n").blocks,
      definition.name = "a=b") ∧
    (∀ line, (Command.asking line .block "a=b").action = .invalid .playBlocks ∧
      (Command.asking line .block "a=b").ignoredKeys = ["a"]) ∧
    ∀ command : Command, (.block, "a=b") ∉ command.action.names := by
  refine ⟨by decide +kernel, fun line => ?_, fun command named => ?_⟩
  · have isWord : Text.IsWord "a=b".toList := by
      simp [Text.IsWord, Text.isInk, Text.isBlank, Text.blankRanges]
    have words := Command.words_asking line .block isWord
    rw [Command.action_eq, Command.ignoredKeys_eq, words]
    exact ⟨by rfl, by rfl⟩
  · rw [command.action_eq] at named
    exact absurd (Action.positional_of_names named) (by decide +kernel)

end Machine

end Sequencer
