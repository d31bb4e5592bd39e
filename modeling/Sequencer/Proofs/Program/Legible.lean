import Sequencer.Proofs.Program.Row
import Sequencer.Program.Reading

/-! # Every program that is read is legible

The invariant of reading is `Draft.Legible`. Each row keeps it, whatever the markers have wrong, and
so `read_legible` holds for every source.
-/

namespace Sequencer

/-! ## Names of definitions -/

namespace Definitions

theorem declares_iff (definitions : List Definition) (name : String) :
    declares definitions name = true ↔ name ∈ definitions.map Definition.name := by
  simp [declares]

theorem mem_declare {definition new : Definition} {definitions : List Definition}
    (member : definition ∈ declare new definitions) : definition = new ∨ definition ∈ definitions := by
  rw [declare] at member
  split at member
  · obtain ⟨old, oldMember, rfl⟩ := List.mem_map.mp member
    split
    · exact Or.inl rfl
    · exact Or.inr oldMember
  · rcases List.mem_append.mp member with old | fresh
    · exact Or.inr old
    · exact Or.inl (List.mem_singleton.mp fresh)

theorem ne_of_fresh {definition : Definition} {definitions : List Definition} {name : String}
    (fresh : name ∉ definitions.map Definition.name) (member : definition ∈ definitions) :
    definition.name ≠ name :=
  fun same => fresh (same ▸ List.mem_map_of_mem member)

theorem declare_of_fresh {new : Definition} {definitions : List Definition}
    (fresh : new.name ∉ definitions.map Definition.name) :
    declare new definitions = definitions ++ [new] := by
  rw [declare, if_neg ((declares_iff definitions new.name).not.mpr fresh)]

/-- A name that stands already keeps its place. -/
theorem names_declare (new : Definition) (definitions : List Definition) :
    (declare new definitions).map Definition.name =
      if new.name ∈ definitions.map Definition.name then definitions.map Definition.name
      else definitions.map Definition.name ++ [new.name] := by
  split
  · next known =>
    rw [declare, if_pos ((declares_iff definitions new.name).mpr known), List.map_map]
    apply List.map_congr_left
    intro old _
    by_cases same : old.name = new.name <;> simp [same]
  · next fresh => rw [declare_of_fresh fresh, List.map_append, List.map_singleton]

theorem nodup_declare (new : Definition) {definitions : List Definition}
    (distinct : (definitions.map Definition.name).Nodup) :
    ((declare new definitions).map Definition.name).Nodup := by
  rw [names_declare]
  split
  · exact distinct
  · next fresh =>
    refine distinct.append (List.nodup_singleton _) ?_
    simpa using fresh

theorem find?_cons (first : Definition) (rest : List Definition) (name : String) :
    find? (first :: rest) name = if first.name = name then some first else find? rest name := by
  by_cases asked : first.name = name <;> simp [find?, asked]

theorem name_of_find? {definitions : List Definition} {name : String} {definition : Definition}
    (found : find? definitions name = some definition) : definition.name = name := by
  simpa using List.find?_some found

theorem find?_of_mem {definition : Definition} {definitions : List Definition}
    (distinct : (definitions.map Definition.name).Nodup) (member : definition ∈ definitions) :
    find? definitions definition.name = some definition := by
  induction definitions with
  | nil => cases member
  | cons first rest inductionHypothesis =>
    rw [List.map_cons, List.nodup_cons] at distinct
    rw [find?, List.find?_cons]
    rcases List.mem_cons.mp member with rfl | member
    · simp
    · have other : first.name ≠ definition.name := by
        intro same
        exact distinct.1 (same ▸ List.mem_map_of_mem member)
      simp only [beq_false_of_ne other]
      exact inductionHypothesis distinct.2 member

end Definitions

/-! ## The invariant -/

namespace Program

structure Legible (program : Program) : Prop where
  globals : ∀ command ∈ program.globals, command.Legible
  definitions : ∀ kind, ∀ definition ∈ program.definitions kind, definition.Legible kind
  distinct : ∀ kind, ((program.definitions kind).map Definition.name).Nodup

theorem Legible.commands {program : Program} (legible : program.Legible) :
    ∀ command ∈ program.commands, command.Legible := by
  intro command member
  rw [Program.commands, List.mem_append, List.mem_append, List.mem_flatMap,
    List.mem_flatMap] at member
  rcases member with (global | ⟨customSample, inSamples, inside⟩) | ⟨block, inBlocks, inside⟩
  · exact legible.globals command global
  · exact (legible.definitions .customSample customSample inSamples).commands command inside
  · exact (legible.definitions .block block inBlocks).commands command inside

structure Draft.Legible (draft : Draft) : Prop where
  globals : ∀ command ∈ draft.globals.toList, command.Legible
  definitions : ∀ kind, ∀ definition ∈ draft.definitions kind, definition.Legible kind
  distinct : ∀ kind, ((draft.definitions kind).map Definition.name).Nodup
  opened : ∀ opened, draft.opened = some opened → opened.definition.Legible opened.kind

namespace Draft

theorem definitions_define (draft : Draft) (kind other : Kind) (definition : Definition) :
    (draft.define kind definition).definitions other =
      if other = kind then Definitions.declare definition (draft.definitions other)
      else draft.definitions other := by
  cases kind <;> cases other <;> rfl

theorem legible_empty : empty.Legible where
  globals := by simp [empty]
  definitions := by
    rintro (_ | _) definition member <;> cases member
  distinct := by
    rintro (_ | _) <;> exact List.nodup_nil
  opened := by
    intro opened found
    cases found

variable {draft : Draft}

theorem Legible.note (legible : draft.Legible) (irregularity : Irregularity) :
    (draft.note irregularity).Legible where
  globals := legible.globals
  definitions := legible.definitions
  distinct := legible.distinct
  opened := legible.opened

theorem Legible.setOpened (legible : draft.Legible) {opened : Option Opened}
    (legibleOpened : ∀ definition, opened = some definition →
      definition.definition.Legible definition.kind) :
    ({ draft with opened } : Draft).Legible where
  globals := legible.globals
  definitions := legible.definitions
  distinct := legible.distinct
  opened := legibleOpened

theorem Legible.define (legible : draft.Legible) {kind : Kind} {definition : Definition}
    (legibleDefinition : definition.Legible kind) : (draft.define kind definition).Legible where
  globals := by
    cases kind <;> exact legible.globals
  definitions := by
    intro other definition' member
    rw [definitions_define] at member
    split at member
    · next same =>
      subst same
      rcases Definitions.mem_declare member with rfl | old
      · exact legibleDefinition
      · exact legible.definitions other definition' old
    · exact legible.definitions other definition' member
  distinct := by
    intro other
    rw [definitions_define]
    split
    · exact Definitions.nodup_declare _ (legible.distinct other)
    · exact legible.distinct other
  opened := by
    cases kind <;> exact legible.opened

theorem Legible.close (legible : draft.Legible) {opened : Opened}
    (legibleOpened : opened.definition.Legible opened.kind) (line : Nat) :
    (draft.close line opened).Legible := by
  have closed : ({ draft with opened := none } : Draft).Legible :=
    legible.setOpened (by simp)
  have declared := closed.define legibleOpened
  rw [Draft.close]
  split
  · exact declared.note _
  · exact declared

theorem Legible.closeWith (legible : draft.Legible) (line : Nat)
    (notice : Opened → Option Irregularity) : (draft.closeWith line notice).Legible := by
  rw [Draft.closeWith]
  split
  · exact legible
  · next opened found =>
    have legibleOpened := legible.opened opened found
    split
    · exact (legible.note _).close legibleOpened line
    · exact legible.close legibleOpened line

theorem Legible.openDefinition (legible : draft.Legible) (line : Nat) {kind : Kind} {name : String}
    {written : List Char} (isName : IsName kind name) (free : Text.CommentFree written) :
    (draft.openDefinition line kind name written).Legible := by
  have ready := legible.closeWith line fun opened =>
    some (.autoClosed line opened.name opened.kind)
  rw [Draft.openDefinition]
  dsimp only
  split
  · next effects read =>
    refine ready.setOpened fun opened found => ?_
    -- effects are legible when all of them could be read, and none are kept otherwise
    obtain rfl : _ = opened := by simpa using found
    exact ⟨isName, by simp [Opened.definition], Header.effects_legible free read⟩
  · refine (ready.note _).setOpened fun opened found => ?_
    obtain rfl : _ = opened := by simpa using found
    exact ⟨isName, by simp [Opened.definition], by simp [Opened.definition]⟩

theorem Legible.endDefinition (legible : draft.Legible) (line : Nat) (kind : Kind) :
    (draft.endDefinition line kind).Legible := by
  rw [Draft.endDefinition]
  split
  · exact legible.note _
  · exact legible.closeWith _ _

theorem Legible.addCommand (legible : draft.Legible) {command : Command}
    (legibleCommand : command.Legible) : (draft.addCommand command).Legible := by
  have mem_push : ∀ {commands : Array Command}, (∀ old ∈ commands.toList, old.Legible) →
      ∀ old ∈ (commands.push command).toList, old.Legible := by
    intro commands legibleCommands old member
    rw [Array.toList_push, List.mem_append, List.mem_singleton] at member
    rcases member with member | rfl
    · exact legibleCommands old member
    · exact legibleCommand
  rw [Draft.addCommand]
  split
  -- with no definition open a command is global
  · exact ⟨mem_push legible.globals, legible.definitions, legible.distinct, legible.opened⟩
  · next opened found =>
    refine legible.setOpened fun opened' found' => ?_
    obtain rfl : _ = opened' := by simpa using found'
    have legibleOpened := legible.opened opened found
    exact ⟨legibleOpened.name, mem_push legibleOpened.commands, legibleOpened.effects⟩

/-- One line keeps the invariant, whatever stands on it. -/
theorem Legible.addLine (legible : draft.Legible) (line : Nat × List Char) :
    (draft.addLine line).Legible := by
  rw [Draft.addLine]
  split
  · next row found =>
    cases row with
    | opening kind name written =>
      obtain ⟨isName, free⟩ := Row.isName_of_opening found
      exact legible.openDefinition line.1 isName free
    | ending kind => exact legible.endDefinition line.1 kind
    | command text => exact legible.addCommand (Row.legible_of_command found line.1)
  · exact legible

theorem Legible.foldl (legible : draft.Legible) (lines : List (Nat × List Char)) :
    (lines.foldl Draft.addLine draft).Legible := by
  induction lines generalizing draft with
  | nil => exact legible
  | cons first rest inductionHypothesis => exact inductionHypothesis (legible.addLine first)

theorem Legible.finish (legible : draft.Legible) (lastLine : Nat) :
    (draft.finish lastLine).Legible := by
  have closed := legible.closeWith lastLine fun opened =>
    some (.unterminated opened.name opened.kind)
  refine ⟨closed.globals, ?_, ?_⟩
  · rintro (_ | _)
    · exact closed.definitions .block
    · exact closed.definitions .customSample
  · rintro (_ | _)
    · exact closed.distinct .block
    · exact closed.distinct .customSample

end Draft

theorem read_legible (source : String) : (read source).Legible :=
  (Draft.legible_empty.foldl _).finish _

end Program

end Sequencer
