import Sequencer.Proofs.Program.Legible
import Sequencer.Proofs.Run.Pairing

/-! # What programs have in common that are the same

Programs that are the same hold the same words under the same names, and their headers have the same
effects block by block. Only the order of the blocks, and with it the order of the effects of
different blocks, is free.
-/

namespace Sequencer

/-! ## Commands and definitions -/

theorem forall₂_of_isEqv {α : Type} {left right : List α} {same : α → α → Bool}
    (all : left.isEqv right same = true) :
    List.Forall₂ (fun one other => same one other = true) left right := by
  induction left generalizing right with
  | nil =>
    cases right with
    | nil => exact .nil
    | cons => cases all
  | cons first rest inductionHypothesis =>
    cases right with
    | nil => cases all
    | cons other others =>
      rw [List.isEqv, Bool.and_eq_true] at all
      exact .cons all.1 (inductionHypothesis all.2)

theorem Command.alike_of_same {left right : Command} (same : left.same right = true) :
    left.Alike right :=
  beq_iff_eq.mp same

theorem Definition.paired_of_same {left right : Definition} (same : left.same right = true) :
    left.Paired Command.Alike right := by
  rw [Definition.same, Bool.and_eq_true, Bool.and_eq_true, beq_iff_eq] at same
  exact ⟨same.1.1, (forall₂_of_isEqv same.1.2).imp fun _ _ => Command.alike_of_same⟩

theorem Definition.effects_of_same {left right : Definition} (same : left.same right = true) :
    List.Forall₂ (fun effect effect' => effect.same effect' = true) left.effects right.effects := by
  rw [Definition.same, Bool.and_eq_true] at same
  exact forall₂_of_isEqv same.2

theorem Definition.name_of_same {left right : Definition} (same : left.same right = true) :
    left.name = right.name :=
  (paired_of_same same).name

/-! ## Names -/

namespace Definitions

theorem mem_names_of_find? {definitions : List Definition} {name : String}
    {definition : Definition} (found : find? definitions name = some definition) :
    name ∈ definitions.map Definition.name :=
  name_of_find? found ▸ List.mem_map_of_mem (List.mem_of_find?_eq_some found)

theorem find?_eq_none_iff {definitions : List Definition} {name : String} :
    find? definitions name = none ↔ name ∉ definitions.map Definition.name := by
  simp [find?, List.find?_eq_none]

theorem exists_of_same {left right : List Definition} (all : same left right = true)
    {definition : Definition} (member : definition ∈ left) :
    ∃ other, find? right definition.name = some other ∧ definition.same other = true := by
  rw [same, Bool.and_eq_true, List.all_eq_true] at all
  have holds := all.2 definition member
  cases found : find? right definition.name with
  | none =>
    rw [found] at holds
    cases holds
  | some other =>
    rw [found] at holds
    exact ⟨other, rfl, holds⟩

/-- As many names as there are on the left cannot leave room for others on the right. -/
theorem names_perm_of_same {left right : List Definition} (all : same left right = true)
    (distinct : (left.map Definition.name).Nodup) :
    (left.map Definition.name).Perm (right.map Definition.name) := by
  have within : left.map Definition.name ⊆ right.map Definition.name := by
    intro name member
    obtain ⟨definition, inLeft, rfl⟩ := List.mem_map.mp member
    obtain ⟨other, found, -⟩ := exists_of_same all inLeft
    exact mem_names_of_find? found
  rw [same, Bool.and_eq_true, beq_iff_eq] at all
  refine (List.subperm_of_subset distinct within).perm_of_length_le ?_
  rw [List.length_map, List.length_map, all.1]

theorem find?_rel_of_same {left right : List Definition} (all : same left right = true)
    (distinct : (left.map Definition.name).Nodup) (name : String) :
    Option.Rel (fun definition other => definition.same other = true)
      (find? left name) (find? right name) := by
  cases found : find? left name with
  | none =>
    have absent := (names_perm_of_same all distinct).mem_iff.not.mp (find?_eq_none_iff.mp found)
    rw [find?_eq_none_iff.mpr absent]
    exact .none
  | some definition =>
    obtain ⟨other, foundOther, same⟩ := exists_of_same all (List.mem_of_find?_eq_some found)
    rw [name_of_find? found] at foundOther
    rw [foundOther]
    exact .some same

theorem forall₂_of_find? {left right : List Definition}
    (distinct : (left.map Definition.name).Nodup)
    (order : left.map Definition.name = right.map Definition.name)
    (each : ∀ definition ∈ left, ∃ other, find? right definition.name = some other ∧
      definition.same other = true) :
    List.Forall₂ (fun definition other => definition.same other = true) left right := by
  induction left generalizing right with
  | nil =>
    obtain rfl := List.map_eq_nil_iff.mp order.symm
    exact .nil
  | cons first rest inductionHypothesis =>
    obtain ⟨other, others, rfl, name, orderRest⟩ := List.map_eq_cons_iff.mp order.symm
    rw [List.map_cons, List.nodup_cons] at distinct
    refine .cons ?_ (inductionHypothesis distinct.2 orderRest.symm fun definition member => ?_)
    · obtain ⟨found, isFound, same⟩ := each first List.mem_cons_self
      rw [find?_cons, if_pos name] at isFound
      rwa [Option.some.inj isFound]
    · -- a later definition has another name
      have different : other.name ≠ definition.name :=
        name ▸ (ne_of_fresh distinct.1 member).symm
      have found := each definition (List.mem_cons_of_mem _ member)
      rwa [find?_cons, if_neg different] at found

/-- With the names in one order, so are the definitions. -/
theorem forall₂_of_same {left right : List Definition} (all : same left right = true)
    (distinct : (left.map Definition.name).Nodup)
    (order : left.map Definition.name = right.map Definition.name) :
    List.Forall₂ (fun definition other => definition.same other = true) left right :=
  forall₂_of_find? distinct order fun _ => exists_of_same all

end Definitions

/-! ## Effects of headers -/

/-- What has been recorded for one block. -/
def effectsOn {α : Type} (block : String) (recorded : List (String × Effect α)) : List (Effect α) :=
  (recorded.filter fun entry => entry.1 == block).map Prod.snd

/-- The effects of headers, each with its block, in order. -/
def Definitions.headers (definitions : List Definition) : List (String × Effect Float) :=
  definitions.flatMap fun definition =>
    definition.effects.map fun effect => (definition.name, effect)

theorem effectsOn_append {α : Type} (block : String) (first second : List (String × Effect α)) :
    effectsOn block (first ++ second) = effectsOn block first ++ effectsOn block second := by
  rw [effectsOn, List.filter_append, List.map_append, effectsOn, effectsOn]

theorem effectsOn_map {α : Type} (block name : String) (effects : List (Effect α)) :
    effectsOn block (effects.map fun effect => (name, effect)) =
      if name = block then effects else [] := by
  by_cases same : name = block
  · rw [if_pos same, effectsOn, List.filter_map, List.map_map]
    simp [Function.comp_def, same]
  · simp [effectsOn, same]

namespace Definitions

theorem effectsOn_headers_cons (block : String) (first : Definition) (rest : List Definition) :
    effectsOn block (headers (first :: rest)) =
      (if first.name = block then first.effects else []) ++ effectsOn block (headers rest) := by
  rw [headers, List.flatMap_cons, ← headers, effectsOn_append, effectsOn_map]

theorem mem_effectsOn_headers {definitions : List Definition} {block : String}
    {effect : Effect Float} (member : effect ∈ effectsOn block (headers definitions)) :
    ∃ definition ∈ definitions, effect ∈ definition.effects := by
  simp only [effectsOn, headers, List.mem_map, List.mem_filter, List.mem_flatMap] at member
  obtain ⟨_, ⟨⟨definition, declared, own, ownMember, rfl⟩, -⟩, rfl⟩ := member
  exact ⟨definition, declared, ownMember⟩

/-- The effects of a block are those of its own header. -/
theorem effectsOn_headers {definitions : List Definition}
    (distinct : (definitions.map Definition.name).Nodup) (block : String) :
    effectsOn block (headers definitions) =
      ((find? definitions block).map Definition.effects).getD [] := by
  induction definitions with
  | nil => rfl
  | cons first rest inductionHypothesis =>
    rw [List.map_cons, List.nodup_cons] at distinct
    rw [effectsOn_headers_cons, inductionHypothesis distinct.2, find?_cons]
    by_cases same : first.name = block
    · simp [same, find?_eq_none_iff.mpr (same ▸ distinct.1)]
    · simp [same]

theorem effectsOn_headers_of_same {left right : List Definition} (all : same left right = true)
    (distinct : (left.map Definition.name).Nodup) (distinct' : (right.map Definition.name).Nodup)
    (block : String) :
    List.Forall₂ (fun effect effect' => effect.same effect' = true)
      (effectsOn block (headers left)) (effectsOn block (headers right)) := by
  have found := find?_rel_of_same all distinct block
  rw [effectsOn_headers distinct, effectsOn_headers distinct']
  generalize find? left block = one at found
  generalize find? right block = other at found
  cases found with
  | none => exact .nil
  | some same => exact Definition.effects_of_same same

/-- With the names in one order, so are the effects. -/
theorem headers_of_same {left right : List Definition} (all : same left right = true)
    (distinct : (left.map Definition.name).Nodup)
    (order : left.map Definition.name = right.map Definition.name) :
    List.Forall₂ (fun entry entry' => entry.1 = entry'.1 ∧ entry.2.same entry'.2 = true)
      (headers left) (headers right) := by
  have definitions := forall₂_of_same all distinct order
  clear all distinct order
  induction definitions with
  | nil => exact .nil
  | cons same _ inductionHypothesis =>
    rw [headers, headers, List.flatMap_cons, List.flatMap_cons]
    refine List.rel_append ?_ inductionHypothesis
    rw [← Definition.name_of_same same, List.forall₂_map_left_iff, List.forall₂_map_right_iff]
    exact (Definition.effects_of_same same).imp fun _ _ same => ⟨rfl, same⟩

end Definitions

/-! ## Programs -/

namespace Program

theorem same_iff {left right : Program} :
    left.same right = true ↔ left.globals.isEqv right.globals Command.same = true ∧
      Definitions.same left.blocks right.blocks = true ∧
      Definitions.same left.customSamples right.customSamples = true := by
  rw [Program.same, Bool.and_eq_true, Bool.and_eq_true, and_assoc]

theorem paired_of_same {left right : Program} (same : left.same right = true)
    (distinct : ∀ kind, ((left.definitions kind).map Definition.name).Nodup) :
    left.Paired Command.Alike right := by
  obtain ⟨globals, blocks, customSamples⟩ := same_iff.mp same
  have paired : ∀ {one other : Option Definition},
      Option.Rel (fun definition other => definition.same other = true) one other →
      Option.Rel (Definition.Paired Command.Alike) one other := by
    intro one other found
    cases found with
    | none => exact .none
    | some same => exact .some (Definition.paired_of_same same)
  refine ⟨(forall₂_of_isEqv globals).imp fun _ _ => Command.alike_of_same, ?_, ?_, ?_⟩
  · rw [Definitions.same, Bool.and_eq_true, beq_iff_eq] at blocks customSamples
    rw [Run.room, Run.room, blocks.1, customSamples.1]
  · exact fun name => paired (Definitions.find?_rel_of_same blocks (distinct .block) name)
  · exact fun name =>
      paired (Definitions.find?_rel_of_same customSamples (distinct .customSample) name)

end Program

end Sequencer
