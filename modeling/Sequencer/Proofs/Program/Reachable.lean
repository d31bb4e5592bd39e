import Mathlib.Logic.Relation
import Sequencer.Program.Basic

/-! # What a program can come to

An action asks for definitions by name, and what is in their bodies asks for further ones. The
commands that can be come to from some definitions are those in the bodies of all that these lead to,
in loops and through custom samples, whether or not a run ever performs them.
-/

namespace Sequencer

/-- The definitions that an action asks for by name. -/
def Action.names : Action → List (Kind × String)
  | .sample arguments => [(.customSample, arguments.name)]
  | .play names _ | .loop _ names _ => names.map (Kind.block, ·)
  | _ => []

namespace Program

/-- The commands of the definition that goes by a name, none if there is no such definition. -/
def body (program : Program) (key : Kind × String) : List Command :=
  ((Definitions.find? (program.definitions key.1) key.2).map Definition.commands).getD []

/-- Some command of the one definition asks for the other. -/
def AsksFor (program : Program) (key other : Kind × String) : Prop :=
  ∃ command ∈ program.body key, other ∈ command.action.names

/-- The one definition asks for the other, by way of any number of further ones. -/
def LeadsTo (program : Program) : Kind × String → Kind × String → Prop :=
  Relation.ReflTransGen program.AsksFor

/-- The definitions that some definitions lead to, these included. -/
def Leads (program : Program) (keys : List (Kind × String)) (key : Kind × String) : Prop :=
  ∃ first ∈ keys, program.LeadsTo first key

/-- The commands in what some definitions lead to. -/
def ComesTo (program : Program) (keys : List (Kind × String)) (command : Command) : Prop :=
  ∃ key, program.Leads keys key ∧ command ∈ program.body key

variable {program : Program} {keys : List (Kind × String)}

theorem leads_of_mem {key : Kind × String} (member : key ∈ keys) : program.Leads keys key :=
  ⟨key, member, .refl⟩

/-- What a command asks for that is come to is come to as well. -/
theorem ComesTo.leads {command : Command} (comes : program.ComesTo keys command)
    {key : Kind × String} (named : key ∈ command.action.names) : program.Leads keys key := by
  obtain ⟨before, ⟨first, member, leads⟩, inBody⟩ := comes
  exact ⟨first, member, leads.tail ⟨command, inBody, named⟩⟩

theorem Leads.comesTo {kind : Kind} {name : String} (leads : program.Leads keys (kind, name))
    {definition : Definition}
    (found : Definitions.find? (program.definitions kind) name = some definition) {command : Command}
    (member : command ∈ definition.commands) : program.ComesTo keys command := by
  refine ⟨(kind, name), leads, ?_⟩
  rw [body, found]
  exact member

theorem mem_commands_of_find? {kind : Kind} {name : String} {definition : Definition}
    (found : Definitions.find? (program.definitions kind) name = some definition) {command : Command}
    (member : command ∈ definition.commands) : command ∈ program.commands := by
  have held : definition ∈ program.definitions kind := List.mem_of_find?_eq_some found
  rw [commands]
  cases kind with
  | block => exact List.mem_append_right _ (List.mem_flatMap_of_mem held member)
  | customSample =>
    refine List.mem_append_left _ (List.mem_append_right _ ?_)
    exact List.mem_flatMap_of_mem held member

/-- Nothing else is come to than what the program holds. -/
theorem ComesTo.mem_commands {command : Command} (comes : program.ComesTo keys command) :
    command ∈ program.commands := by
  obtain ⟨⟨kind, name⟩, -, inBody⟩ := comes
  rw [body] at inBody
  cases found : Definitions.find? (program.definitions kind) name with
  | none => simp [found] at inBody
  | some definition =>
    rw [found] at inBody
    exact mem_commands_of_find? found inBody

end Program

end Sequencer
