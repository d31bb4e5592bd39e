import Sequencer.Proofs.Program.Legible

/-! # Programs that differ in line numbers only

Such programs are the same, if what they hold is legible, and they have one canonical form.
-/

namespace Sequencer

/-! ## Commands and definitions -/

def Command.Alike (left right : Command) : Prop := left.words = right.words

structure Definition.Alike (left right : Definition) : Prop where
  name : left.name = right.name
  commands : List.Forall₂ Command.Alike left.commands right.commands
  effects : left.effects = right.effects

structure Program.Alike (left right : Program) : Prop where
  globals : List.Forall₂ Command.Alike left.globals right.globals
  definitions : ∀ kind, List.Forall₂ Definition.Alike (left.definitions kind) (right.definitions kind)

theorem map_eq_of_forall₂ {α β : Type} {related : α → α → Prop} {left right : List α}
    (all : List.Forall₂ related left right) {image : α → β}
    (equal : ∀ left right, related left right → image left = image right) :
    left.map image = right.map image := by
  induction all with
  | nil => rfl
  | cons first _ inductionHypothesis =>
    rw [List.map_cons, List.map_cons, equal _ _ first, inductionHypothesis]

theorem isEqv_of_forall₂ {α : Type} {related : α → α → Prop} {left right : List α}
    (all : List.Forall₂ related left right) {same : α → α → Bool}
    (holds : ∀ left right, related left right → same left right = true) :
    left.isEqv right same = true := by
  induction all with
  | nil => rfl
  | cons first _ inductionHypothesis =>
    rw [List.isEqv, holds _ _ first, inductionHypothesis, Bool.and_self]

theorem isEqv_self {α : Type} {items : List α} {same : α → α → Bool}
    (holds : ∀ item ∈ items, same item item = true) : items.isEqv items same = true := by
  induction items with
  | nil => rfl
  | cons first rest inductionHypothesis =>
    rw [List.isEqv, holds first List.mem_cons_self,
      inductionHypothesis fun item member => holds item (List.mem_cons_of_mem _ member),
      Bool.and_self]

theorem Command.Alike.text {left right : Command} (alike : left.Alike right) :
    left.text = right.text :=
  congrArg Text.joinWords alike

theorem Command.Alike.same {left right : Command} (alike : left.Alike right) :
    left.same right = true := by
  rw [Command.same, beq_iff_eq]
  exact alike

/-- Only numbers that are none differ from themselves. -/
theorem Effect.Legible.same_self {effect : Effect Float} (legible : effect.Legible) :
    effect.same effect = true := by
  rw [Effect.same, beq_self_eq_true, Bool.true_and]
  apply isEqv_self
  intro parameter member
  rw [Parameter.same, beq_self_eq_true, Bool.true_and]
  exact Number.beq_self_of_finite (legible.parameters parameter member).finite

theorem Definition.Alike.same {left right : Definition} {kind : Kind} (alike : left.Alike right)
    (legible : right.Legible kind) : left.same right = true := by
  rw [Definition.same, alike.name, alike.effects, beq_self_eq_true, Bool.true_and,
    isEqv_of_forall₂ alike.commands fun _ _ => Command.Alike.same, Bool.true_and]
  exact isEqv_self fun effect member => (legible.effects effect member).same_self

theorem Definition.Alike.paragraph {left right : Definition} (alike : left.Alike right)
    (kind : Kind) : Program.paragraph kind left = Program.paragraph kind right := by
  have texts : left.commands.map Program.indented = right.commands.map Program.indented :=
    map_eq_of_forall₂ alike.commands fun _ _ same => congrArg ("  " ++ ·) same.text
  rw [Program.paragraph, Program.paragraph, Program.header, Program.header, alike.name,
    alike.effects, texts]

/-! ## Programs -/

namespace Definitions

theorem find?_alike {left right : List Definition}
    (alike : List.Forall₂ Definition.Alike left right)
    (distinct : (right.map Definition.name).Nodup) {definition : Definition}
    (member : definition ∈ left) :
    ∃ other ∈ right, definition.Alike other ∧ find? right definition.name = some other := by
  obtain ⟨other, otherMember, same⟩ : ∃ other ∈ right, definition.Alike other := by
    induction alike with
    | nil => cases member
    | cons first _ inductionHypothesis =>
      rcases List.mem_cons.mp member with rfl | member
      · exact ⟨_, List.mem_cons_self, first⟩
      · obtain ⟨other, otherMember, same⟩ := inductionHypothesis (List.nodup_cons.mp distinct).2 member
        exact ⟨other, List.mem_cons_of_mem _ otherMember, same⟩
  refine ⟨other, otherMember, same, ?_⟩
  -- names are distinct, so that the name finds no other definition
  rw [same.name]
  exact find?_of_mem distinct otherMember

theorem same_of_alike {left right : List Definition} {kind : Kind}
    (alike : List.Forall₂ Definition.Alike left right)
    (distinct : (right.map Definition.name).Nodup)
    (legible : ∀ definition ∈ right, definition.Legible kind) : same left right = true := by
  rw [same, alike.length_eq, beq_self_eq_true, Bool.true_and, List.all_eq_true]
  intro definition member
  obtain ⟨other, otherMember, sameDefinition, found⟩ := find?_alike alike distinct member
  rw [found]
  exact sameDefinition.same (legible other otherMember)

end Definitions

namespace Program

theorem Alike.same {left right : Program} (alike : left.Alike right) (legible : right.Legible) :
    left.same right = true := by
  have globals : left.globals.isEqv right.globals Command.same = true :=
    isEqv_of_forall₂ alike.globals fun _ _ => Command.Alike.same
  have blocks : Definitions.same left.blocks right.blocks = true :=
    Definitions.same_of_alike (alike.definitions .block) (legible.distinct .block)
      (legible.definitions .block)
  have customSamples : Definitions.same left.customSamples right.customSamples = true :=
    Definitions.same_of_alike (alike.definitions .customSample) (legible.distinct .customSample)
      (legible.definitions .customSample)
  rw [Program.same, globals, blocks, customSamples, Bool.and_self, Bool.and_self]

theorem Alike.names {left right : Program} (alike : left.Alike right) (kind : Kind) :
    (left.definitions kind).map Definition.name = (right.definitions kind).map Definition.name :=
  map_eq_of_forall₂ (alike.definitions kind) fun _ _ => Definition.Alike.name

theorem Alike.print {left right : Program} (alike : left.Alike right) : left.print = right.print := by
  have globals : left.globals.map Command.text = right.globals.map Command.text :=
    map_eq_of_forall₂ alike.globals fun _ _ => Command.Alike.text
  have empty : left.globals.isEmpty = right.globals.isEmpty := by
    rw [← List.isEmpty_map (f := Command.text), globals, List.isEmpty_map]
  have blocks : left.blocks.map (paragraph .block) = right.blocks.map (paragraph .block) :=
    map_eq_of_forall₂ (alike.definitions .block) fun _ _ same => same.paragraph .block
  have customSamples : left.customSamples.map (paragraph .customSample) =
      right.customSamples.map (paragraph .customSample) :=
    map_eq_of_forall₂ (alike.definitions .customSample) fun _ _ same => same.paragraph .customSample
  rw [Program.print, Program.print, paragraphs, paragraphs, globals, empty, blocks, customSamples]

end Program

end Sequencer
