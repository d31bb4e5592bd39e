import Mathlib.Data.List.Forall2
import Sequencer.Proofs.Program.Playing
import Sequencer.Proofs.Program.Sameness

/-! # Inlined blocks

A command that plays one block, and says nothing else, can be replaced by the commands of the block.
`Program.InlinedOnce` replaces one such command, among the globals or in a block; `Program.Inlined`
any number of them.
-/

namespace Sequencer

/-- A command that is exactly the word `play` and the name of a block. -/
structure Command.Plays (command : Command) (name : String) : Prop where
  words : command.words = ["play", name]
  unkeyed : splitKey name = none

theorem Command.Plays.playsAll {command : Command} {name : String} (plays : command.Plays name) :
    command.PlaysAll [name] :=
  ⟨plays.words, List.cons_ne_nil _ _, List.forall_mem_singleton.mpr plays.unkeyed⟩

theorem Command.Plays.action {command : Command} {name : String} (plays : command.Plays name) :
    command.action = .play [name] { volume := none, pan := none } :=
  plays.playsAll.action

theorem Command.Plays.ignoredKeys {command : Command} {name : String} (plays : command.Plays name) :
    command.ignoredKeys = [] :=
  plays.playsAll.ignoredKeys

namespace Program

/-- Commands with some that only play a block replaced by the commands of the block. -/
inductive Inlines (program : Program) : List Command → List Command → Prop
  | nil : Inlines program [] []
  | keep (command) {rest rest'} : Inlines program rest rest' →
      Inlines program (command :: rest) (command :: rest')
  | inline {command name block rest rest'} : command.Plays name → program.block? name = some block →
      Inlines program rest rest' → Inlines program (command :: rest) (block.commands ++ rest')

variable {program inlined : Program}

theorem Inlines.append_left {rest rest' : List Command} (inlines : program.Inlines rest rest')
    (commands : List Command) : program.Inlines (commands ++ rest) (commands ++ rest') := by
  induction commands with
  | nil => exact inlines
  | cons command commands inductionHypothesis => exact .keep command inductionHypothesis

theorem Inlines.refl (program : Program) (commands : List Command) :
    program.Inlines commands commands := by
  induction commands with
  | nil => exact .nil
  | cons command rest inductionHypothesis => exact .keep command inductionHypothesis

theorem Inlines.once {command : Command} {name : String} {block : Definition}
    (plays : command.Plays name) (found : program.block? name = some block)
    (before after : List Command) :
    program.Inlines (before ++ command :: after) (before ++ block.commands ++ after) := by
  rw [List.append_assoc]
  exact (Inlines.inline plays found (.refl program after)).append_left before

end Program

/-- A definition with commands inlined. -/
structure Definition.Inlined (program : Program) (definition inlined : Definition) : Prop where
  name : definition.name = inlined.name
  effects : definition.effects = inlined.effects
  commands : program.Inlines definition.commands inlined.commands

theorem Definition.Inlined.refl (program : Program) (definition : Definition) :
    definition.Inlined program definition :=
  ⟨rfl, rfl, .refl program _⟩

namespace Program

variable {program program' : Program}

/-- A program with commands inlined in its globals and blocks. -/
structure Inlined (program program' : Program) : Prop where
  globals : program.Inlines program.globals program'.globals
  /-- Without globals the entry block would be performed. -/
  entry : program.globals.isEmpty = program'.globals.isEmpty
  blocks : List.Forall₂ (Definition.Inlined program) program.blocks program'.blocks
  customSamples : program.customSamples = program'.customSamples

/-- A program in which one command that plays a block that is not empty is inlined. -/
inductive InlinedOnce (program : Program) : Program → Prop
  | globals {before command after name block} : program.globals = before ++ command :: after →
      command.Plays name → program.block? name = some block → block.commands ≠ [] →
      InlinedOnce program { program with globals := before ++ block.commands ++ after }
  | block {earlier host later before command after name block} :
      program.blocks = earlier ++ host :: later → host.commands = before ++ command :: after →
      command.Plays name → program.block? name = some block → block.commands ≠ [] →
      InlinedOnce program
        { program with
          blocks := earlier ++ { host with commands := before ++ block.commands ++ after } :: later }

theorem InlinedOnce.inlined (once : program.InlinedOnce program') : program.Inlined program' := by
  have same : ∀ blocks : List Definition, List.Forall₂ (Definition.Inlined program) blocks blocks :=
    fun blocks => List.forall₂_same.mpr fun block _ => .refl program block
  cases once with
  | globals globals plays found filled =>
    refine ⟨?_, ?_, same _, rfl⟩
    · rw [globals]
      exact .once plays found _ _
    · rw [globals, Bool.eq_iff_iff, List.isEmpty_iff, List.isEmpty_iff]
      simp [filled]
  | block blocks host plays found filled =>
    refine ⟨.refl program _, rfl, ?_, rfl⟩
    rw [blocks]
    refine List.rel_append (same _) (.cons ⟨rfl, rfl, ?_⟩ (same _))
    rw [host]
    exact .once plays found _ _

/-! ## Definitions by name -/

theorem find?_inlined {blocks blocks' : List Definition}
    (inlines : List.Forall₂ (Definition.Inlined program) blocks blocks') (name : String) :
    Option.Rel (Definition.Inlined program) (Definitions.find? blocks name)
      (Definitions.find? blocks' name) := by
  induction inlines with
  | nil => exact .none
  | @cons block block' _ _ inlined _ inductionHypothesis =>
    rw [Definitions.find?, Definitions.find?, List.find?_cons, List.find?_cons, ← inlined.name]
    split
    · exact .some inlined
    · exact inductionHypothesis

namespace Inlined

variable (inlined : program.Inlined program')

include inlined

theorem block? (name : String) :
    Option.Rel (Definition.Inlined program) (program.block? name) (program'.block? name) :=
  find?_inlined inlined.blocks name

theorem customSample? (name : String) : program.customSample? name = program'.customSample? name := by
  rw [Program.customSample?, Program.customSample?, inlined.customSamples]

theorem headers : Definitions.headers program.blocks = Definitions.headers program'.blocks := by
  have blocks := inlined.blocks
  generalize program.blocks = definitions at blocks
  generalize program'.blocks = definitions' at blocks
  rw [Definitions.headers, Definitions.headers]
  induction blocks with
  | nil => rfl
  | cons same _ inductionHypothesis =>
    rw [List.flatMap_cons, List.flatMap_cons, inductionHypothesis, same.name, same.effects]

end Inlined

end Program

end Sequencer
