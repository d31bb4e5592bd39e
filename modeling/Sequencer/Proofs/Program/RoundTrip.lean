import Sequencer.Proofs.Program.Alike
import Sequencer.Proofs.Program.Printing

/-! # The canonical form reads back

What was read from any source is legible, so that each of its rows is read for what it was written
for. Reading the canonical form gives the same program, with nothing irregular: `read_print`.
-/

namespace Sequencer

open Text

namespace Program

/-! ## Reading rows that were written -/

namespace Draft

/-- Takes rows one after another, each with the number of its line. -/
def addRows (draft : Draft) (numbered : List (Nat × Row)) : Draft :=
  numbered.foldl (fun draft row => draft.addRow row.1 row.2) draft

theorem foldl_addLine (draft : Draft) (numbered : List (Nat × List Char)) :
    numbered.foldl Draft.addLine draft =
      draft.addRows (numbered.filterMap fun line => (Row.ofLine? line.2).map (line.1, ·)) := by
  induction numbered generalizing draft with
  | nil => rfl
  | cons first rest inductionHypothesis =>
    rw [List.foldl_cons, inductionHypothesis, Draft.addLine]
    cases found : Row.ofLine? first.2 with
    | none => rw [List.filterMap_cons_none (by rw [found]; rfl)]
    | some row =>
      rw [List.filterMap_cons_some (by rw [found]; rfl)]
      rfl

theorem addRows_append (draft : Draft) (left right : List (Nat × Row)) :
    draft.addRows (left ++ right) = (draft.addRows left).addRows right :=
  List.foldl_append

theorem addRows_commands {commands : List Command} (legible : ∀ command ∈ commands, command.Legible)
    {numbered : List (Nat × Row)} (written : numbered.map Prod.snd = commands.map commandRow)
    (draft : Draft) :
    ∃ added, List.Forall₂ Command.Alike added commands ∧
      draft.addRows numbered = added.foldl addCommand draft := by
  induction commands generalizing numbered draft with
  | nil =>
    obtain rfl := List.map_eq_nil_iff.mp written
    exact ⟨[], .nil, rfl⟩
  | cons first rest inductionHypothesis =>
    obtain ⟨⟨line, _⟩, later, rfl, rfl, writtenRest⟩ := List.map_eq_cons_iff.mp written
    obtain ⟨added, alike, result⟩ := inductionHypothesis
      (fun command member => legible command (List.mem_cons_of_mem _ member)) writtenRest
      (draft.addCommand (.ofText line first.text.toList))
    exact ⟨.ofText line first.text.toList :: added,
      .cons ((legible first List.mem_cons_self).words_ofText line) alike, result⟩

theorem foldl_addCommand_closed (added : List Command) {draft : Draft}
    (closed : draft.opened = none) :
    added.foldl addCommand draft = { draft with globals := draft.globals ++ added } := by
  induction added generalizing draft with
  | nil => simp
  | cons first rest inductionHypothesis =>
    have step : draft.addCommand first = { draft with globals := draft.globals.push first } := by
      rw [addCommand, closed]
    rw [List.foldl_cons, step, Array.appendList_cons]
    exact inductionHypothesis closed

theorem foldl_addCommand_opened (added : List Command) {draft : Draft} {opened : Opened}
    (isOpen : draft.opened = some opened) :
    added.foldl addCommand draft =
      { draft with opened := some { opened with commands := opened.commands ++ added } } := by
  induction added generalizing draft opened with
  | nil => simp [← isOpen]
  | cons first rest inductionHypothesis =>
    have step : draft.addCommand first =
        { draft with opened := some { opened with commands := opened.commands.push first } } := by
      rw [addCommand, isOpen]
    rw [List.foldl_cons, step, inductionHypothesis rfl, Array.appendList_cons]

/-- The end marker of its own kind declares a definition whose name is new. -/
theorem endDefinition_fresh {draft : Draft} {opened : Opened} (isOpen : draft.opened = some opened)
    (fresh : opened.name ∉ (draft.definitions opened.kind).map Definition.name) (line : Nat) :
    draft.endDefinition line opened.kind =
      ({ draft with opened := none } : Draft).define opened.kind opened.definition := by
  have unknown : Definitions.declares (draft.definitions opened.kind) opened.name = false := by
    rw [← Bool.not_eq_true, Definitions.declares_iff]
    exact fresh
  simp [endDefinition, closeWith, isOpen, close, unknown]

theorem addRows_definition {kind : Kind} {definition : Definition}
    (legible : definition.Legible kind) {numbered : List (Nat × Row)}
    (written : numbered.map Prod.snd = definitionRows kind definition) {draft : Draft}
    (closed : draft.opened = none)
    (fresh : definition.name ∉ (draft.definitions kind).map Definition.name) :
    ∃ added, added.Alike definition ∧ draft.addRows numbered = draft.define kind added := by
  rw [definitionRows, List.cons_append] at written
  -- the rows are the header, the commands and the end marker
  obtain ⟨⟨first, _⟩, later, rfl, rfl, writtenLater⟩ := List.map_eq_cons_iff.mp written
  obtain ⟨inside, last, rfl, writtenInside, writtenLast⟩ := List.map_eq_append_iff.mp writtenLater
  obtain ⟨⟨line, _⟩, none_left, rfl, rfl, nothing⟩ := List.map_eq_cons_iff.mp writtenLast
  obtain rfl := List.map_eq_nil_iff.mp nothing
  let opened : Opened :=
    { kind, name := definition.name, effects := definition.effects, commands := #[] }
  have opening : draft.addRow first (.opening kind definition.name
      (joined (definition.effects.map (·.text.toList)))) = { draft with opened := some opened } := by
    simp only [addRow, openDefinition, closeWith, closed, Header.read_joined legible.effects]
    rfl
  obtain ⟨added, alike, result⟩ := addRows_commands legible.commands writtenInside
    { draft with opened := some opened }
  rw [foldl_addCommand_opened added rfl] at result
  refine ⟨{ name := definition.name, commands := added, effects := definition.effects },
    ⟨rfl, alike, rfl⟩, ?_⟩
  have whole : draft.addRows ((first, Row.opening kind definition.name
      (joined (definition.effects.map (·.text.toList)))) :: (inside ++ [(line, Row.ending kind)])) =
      (({ draft with opened := some opened } : Draft).addRows inside).endDefinition line kind := by
    rw [← opening]
    exact addRows_append _ inside [(line, .ending kind)]
  let filled : Opened := { opened with commands := opened.commands ++ added }
  -- a fresh name redeclares nothing
  have ended := @endDefinition_fresh { draft with opened := some filled } filled rfl fresh line
  rw [whole, result]
  refine ended.trans ?_
  obtain ⟨globals, blocks, customSamples, irregularities, nothing⟩ := draft
  obtain rfl : nothing = none := closed
  simp [filled, opened, Opened.definition]

/-- What comes after adds definitions of one kind, and nothing else. -/
structure Declares (kind : Kind) (before after : Draft) (added : List Definition) : Prop where
  definitions : after.definitions kind = before.definitions kind ++ added
  others : ∀ other, other ≠ kind → after.definitions other = before.definitions other
  globals : after.globals = before.globals
  irregularities : after.irregularities = before.irregularities
  opened : after.opened = before.opened

theorem Declares.refl (kind : Kind) (draft : Draft) : Declares kind draft draft [] where
  definitions := (List.append_nil _).symm
  others := fun _ _ => rfl
  globals := rfl
  irregularities := rfl
  opened := rfl

theorem Declares.trans {kind : Kind} {before middle after : Draft} {first rest : List Definition}
    (left : Declares kind before middle first) (right : Declares kind middle after rest) :
    Declares kind before after (first ++ rest) where
  definitions := by rw [right.definitions, left.definitions, List.append_assoc]
  others := fun other different => (right.others other different).trans (left.others other different)
  globals := right.globals.trans left.globals
  irregularities := right.irregularities.trans left.irregularities
  opened := right.opened.trans left.opened

theorem declares_define {kind : Kind} {draft : Draft} {definition : Definition}
    (fresh : definition.name ∉ (draft.definitions kind).map Definition.name) :
    Declares kind draft (draft.define kind definition) [definition] where
  definitions := by
    rw [definitions_define, if_pos rfl, Definitions.declare_of_fresh fresh]
  others := fun other different => by rw [definitions_define, if_neg different]
  globals := by cases kind <;> rfl
  irregularities := by cases kind <;> rfl
  opened := by cases kind <;> rfl

/-- The rows of definitions declare them in their order. -/
theorem addRows_definitions {kind : Kind} {definitions : List Definition}
    (legible : ∀ definition ∈ definitions, definition.Legible kind) {numbered : List (Nat × Row)}
    (written : numbered.map Prod.snd = definitions.flatMap (definitionRows kind)) {draft : Draft}
    (closed : draft.opened = none)
    (distinct : ((draft.definitions kind ++ definitions).map Definition.name).Nodup) :
    ∃ added, List.Forall₂ Definition.Alike added definitions ∧
      Declares kind draft (draft.addRows numbered) added := by
  induction definitions generalizing numbered draft with
  | nil =>
    obtain rfl := List.map_eq_nil_iff.mp written
    exact ⟨[], .nil, .refl kind draft⟩
  | cons first rest inductionHypothesis =>
    obtain ⟨front, later, rfl, writtenFirst, writtenRest⟩ := List.map_eq_append_iff.mp written
    have fresh : first.name ∉ (draft.definitions kind).map Definition.name := by
      rw [List.map_append, List.map_cons, List.nodup_append] at distinct
      exact fun member => distinct.2.2 _ member _ List.mem_cons_self rfl
    obtain ⟨declared, alike, result⟩ :=
      addRows_definition (legible first List.mem_cons_self) writtenFirst closed fresh
    have declares := declares_define (alike.name ▸ fresh)
    rw [← result] at declares
    -- the definition that was just declared has the name of the one it was written for
    have stillDistinct : (((draft.addRows front).definitions kind ++ rest).map
        Definition.name).Nodup := by
      rw [declares.definitions, List.append_assoc, List.map_append, List.singleton_append,
        List.map_cons, alike.name, ← List.map_cons, ← List.map_append]
      exact distinct
    obtain ⟨added, alikeRest, declaresRest⟩ := inductionHypothesis
      (fun definition member => legible definition (List.mem_cons_of_mem _ member)) writtenRest
      (declares.opened.trans closed) stillDistinct
    refine ⟨declared :: added, .cons alike alikeRest, ?_⟩
    rw [addRows_append]
    exact declares.trans declaresRest

theorem finish_closed {draft : Draft} (closed : draft.opened = none) (lastLine : Nat) :
    draft.finish lastLine =
      { globals := draft.globals.toList
        blocks := draft.blocks
        customSamples := draft.customSamples
        irregularities := draft.irregularities.toList } := by
  rw [finish, closeWith, closed]

/-- The rows of a legible program are read without an irregularity. -/
theorem addRows_rows {program : Program} (legible : program.Legible) {numbered : List (Nat × Row)}
    (written : numbered.map Prod.snd = program.rows) (lastLine : Nat) :
    ((empty.addRows numbered).finish lastLine).Alike program ∧
      ((empty.addRows numbered).finish lastLine).irregularities = [] := by
  rw [rows] at written
  obtain ⟨front, blockRows, rfl, writtenFront, writtenBlocks⟩ := List.map_eq_append_iff.mp written
  obtain ⟨globalRows, customSampleRows, rfl, writtenGlobals, writtenCustomSamples⟩ :=
    List.map_eq_append_iff.mp writtenFront
  obtain ⟨globals, alikeGlobals, withGlobals⟩ :=
    addRows_commands legible.globals writtenGlobals empty
  rw [foldl_addCommand_closed globals rfl] at withGlobals
  -- globals open no definition, and each definition that is opened is closed
  have closed : (empty.addRows globalRows).opened = none := by rw [withGlobals]; rfl
  have noCustomSamples : (empty.addRows globalRows).definitions .customSample = [] := by
    rw [withGlobals]
    rfl
  obtain ⟨customSamples, alikeCustomSamples, withCustomSamples⟩ :=
    addRows_definitions (legible.definitions .customSample) writtenCustomSamples closed
      (by rw [noCustomSamples]; exact legible.distinct .customSample)
  have noBlocks : ((empty.addRows globalRows).addRows customSampleRows).definitions .block = [] := by
    rw [withCustomSamples.others .block (by decide), withGlobals]
    rfl
  obtain ⟨blocks, alikeBlocks, withBlocks⟩ :=
    addRows_definitions (legible.definitions .block) writtenBlocks
      (withCustomSamples.opened.trans closed)
      (by rw [noBlocks]; exact legible.distinct .block)
  have all := withBlocks.opened.trans (withCustomSamples.opened.trans closed)
  rw [addRows_append, addRows_append, finish_closed all]
  refine ⟨⟨?_, ?_⟩, ?_⟩
  · dsimp only
    rw [withBlocks.globals, withCustomSamples.globals, withGlobals]
    simpa [empty] using alikeGlobals
  · rintro (_ | _)
    · have read := withBlocks.definitions
      rw [noBlocks, List.nil_append] at read
      rw [← read] at alikeBlocks
      exact alikeBlocks
    · have read := (withBlocks.others .customSample (by decide)).trans withCustomSamples.definitions
      rw [noCustomSamples, List.nil_append] at read
      rw [← read] at alikeCustomSamples
      exact alikeCustomSamples
  · dsimp only
    rw [withBlocks.irregularities, withCustomSamples.irregularities, withGlobals]
    rfl

end Draft

theorem map_snd_numbered (lines : List (List Char)) : (numbered lines).map Prod.snd = lines := by
  apply List.ext_getElem
  · simp [numbered]
  · simp [numbered]

theorem map_snd_filterMap (numbered : List (Nat × List Char)) :
    (numbered.filterMap fun line => (Row.ofLine? line.2).map (line.1, ·)).map Prod.snd =
      (numbered.map Prod.snd).filterMap Row.ofLine? := by
  rw [List.map_filterMap, List.filterMap_map]
  congr 1
  funext line
  simp [Option.map_map, Function.comp_def]

/-- The canonical form of a legible program is read as that program. -/
theorem Legible.reads_back {program : Program} (legible : program.Legible) :
    (read program.print).Alike program ∧ (read program.print).irregularities = [] := by
  rw [read, Draft.foldl_addLine]
  apply Draft.addRows_rows legible
  rw [← rows_print legible, map_snd_filterMap, map_snd_numbered]

/-- Printing keeps what was read from any source: the commands, the definitions in their order, and
the form itself. -/
theorem read_print (source : String) :
    (read (read source).print).same (read source) = true ∧
      (read (read source).print).blocks.map Definition.name =
        (read source).blocks.map Definition.name ∧
      (read (read source).print).customSamples.map Definition.name =
        (read source).customSamples.map Definition.name ∧
      (read (read source).print).irregularities = [] ∧
      (read (read source).print).print = (read source).print := by
  have legible := read_legible source
  obtain ⟨alike, regular⟩ := legible.reads_back
  exact ⟨alike.same legible, alike.names .block, alike.names .customSample, regular, alike.print⟩

end Program

end Sequencer
