import Sequencer.Proofs.Program.Reachable
import Sequencer.Proofs.Program.Sameness
import Sequencer.Run.Performance

/-! # Definitions that are not in use

A program is entered at its globals, or at the entry block if there are none. A definition is in use
if the entry leads to it. Blocks and custom samples are named apart, so that of two definitions with
one name the one may be in use and the other not.
-/

namespace Sequencer

/-! ## One name left out -/

namespace Definitions

theorem find?_filter {definitions : List Definition} {name : String} {keep : Definition → Bool}
    (kept : ∀ definition : Definition, definition.name = name → keep definition = true) :
    find? (definitions.filter keep) name = find? definitions name := by
  rw [find?, find?, List.find?_filter]
  refine List.find?_congr fun definition _ => ?_
  by_cases same : definition.name = name
  · simp [kept definition same, same]
  · simp [same]

theorem effectsOn_headers_filter {block : String} {keep : Definition → Bool}
    (kept : ∀ definition : Definition, definition.name = block → keep definition = true)
    (definitions : List Definition) :
    effectsOn block (headers (definitions.filter keep)) =
      effectsOn block (headers definitions) := by
  induction definitions with
  | nil => rfl
  | cons first rest inductionHypothesis =>
    rw [effectsOn_headers_cons, List.filter_cons, ← inductionHypothesis]
    split
    · rw [effectsOn_headers_cons]
    · next dropped =>
      rw [if_neg fun same => dropped (kept first same)]
      rfl

end Definitions

namespace Program

/-- Two programs that are the same but for what they define under one name. -/
structure EqualBut (key : Kind × String) (program program' : Program) : Prop where
  globals : program.globals = program'.globals
  others : ∀ kind,
    (program.definitions kind).filter (fun definition => (kind, definition.name) ≠ key) =
      (program'.definitions kind).filter fun definition => (kind, definition.name) ≠ key

namespace EqualBut

variable {key : Kind × String} {program program' : Program}

theorem kept_of_name {kind : Kind} {name : String} (other : (kind, name) ≠ key)
    (definition : Definition) (named : definition.name = name) :
    decide ((kind, definition.name) ≠ key) = true :=
  decide_eq_true (named ▸ other)

theorem find? (equal : EqualBut key program program') {kind : Kind} {name : String}
    (other : (kind, name) ≠ key) :
    Definitions.find? (program.definitions kind) name =
      Definitions.find? (program'.definitions kind) name := by
  rw [← Definitions.find?_filter (kept_of_name other), equal.others,
    Definitions.find?_filter (kept_of_name other)]

/-- The headers of the other blocks are the same. -/
theorem headers (equal : EqualBut key program program') {block : String}
    (other : (Kind.block, block) ≠ key) :
    effectsOn block (Definitions.headers program.blocks) =
      effectsOn block (Definitions.headers program'.blocks) := by
  have blocks : program.blocks.filter (fun definition => (Kind.block, definition.name) ≠ key) =
      program'.blocks.filter fun definition => (Kind.block, definition.name) ≠ key :=
    equal.others .block
  rw [← Definitions.effectsOn_headers_filter (kept_of_name other), blocks,
    Definitions.effectsOn_headers_filter (kept_of_name other)]

/-- A definition that is added in any place, or taken away from it. -/
theorem of_insert {kind : Kind} {front back : List Definition} {definition : Definition}
    (globals : program.globals = program'.globals)
    (without : program.definitions kind = front ++ back)
    (having : program'.definitions kind = front ++ definition :: back)
    (rest : ∀ other, other ≠ kind → program.definitions other = program'.definitions other) :
    EqualBut (kind, definition.name) program program' where
  globals := globals
  others := by
    intro other
    by_cases same : other = kind
    · subst same
      rw [without, having]
      simp
    · rw [rest other same]

theorem symm (equal : EqualBut key program program') : EqualBut key program' program :=
  ⟨equal.globals.symm, fun kind => (equal.others kind).symm⟩

theorem body (equal : EqualBut key program program') {other : Kind × String}
    (different : other ≠ key) : program.body other = program'.body other := by
  rw [Program.body, Program.body, equal.find? different]

end EqualBut

/-! ## The entry -/

/-- What is named at the entry of a program. -/
def entryNames (program : Program) : List (Kind × String) :=
  if program.globals.isEmpty then [(.block, Run.entryBlock)]
  else program.globals.flatMap fun command => command.action.names

/-- Whether the entry of a program leads to what goes by a name. -/
def InUse (program : Program) (key : Kind × String) : Prop :=
  program.Leads program.entryNames key

variable {program : Program}

theorem inUse_entryBlock (none : program.globals = []) : program.InUse (.block, Run.entryBlock) :=
  leads_of_mem (by simp [entryNames, none])

theorem inUse_of_global {command : Command} (member : command ∈ program.globals)
    {key : Kind × String} (named : key ∈ command.action.names) : program.InUse key := by
  have filled : program.globals.isEmpty = false := by
    rw [← Bool.not_eq_true, List.isEmpty_iff]
    exact List.ne_nil_of_mem member
  refine leads_of_mem ?_
  rw [entryNames, filled]
  exact List.mem_flatMap_of_mem member named

/-- A name that is in use is named in the program, unless it is the entry block. -/
theorem exists_named_of_inUse {key : Kind × String} (used : program.InUse key) :
    key = (.block, Run.entryBlock) ∨ ∃ command ∈ program.commands, key ∈ command.action.names := by
  obtain ⟨first, member, leads⟩ := used
  cases leads with
  | refl =>
    rw [entryNames] at member
    split at member
    · exact .inl (List.mem_singleton.mp member)
    · obtain ⟨command, global, named⟩ := List.mem_flatMap.mp member
      exact .inr ⟨command, by simp [commands, global], named⟩
  | tail leads asks =>
    obtain ⟨command, inBody, named⟩ := asks
    exact .inr ⟨command, ComesTo.mem_commands ⟨_, ⟨first, member, leads⟩, inBody⟩, named⟩

theorem EqualBut.entryNames {key : Kind × String} {program program' : Program}
    (equal : EqualBut key program program') : program.entryNames = program'.entryNames := by
  rw [Program.entryNames, Program.entryNames, equal.globals]

/-- The way to a name does not lead through what it stands for. -/
theorem EqualBut.leadsTo {key : Kind × String} {program program' : Program}
    (equal : EqualBut key program program') {first : Kind × String}
    (leads : program.LeadsTo first key) : program'.LeadsTo first key := by
  induction leads using Relation.ReflTransGen.head_induction_on with
  | refl => exact .refl
  | @head current next asks _ inductionHypothesis =>
    by_cases here : current = key
    · exact here ▸ .refl
    · obtain ⟨command, inBody, named⟩ := asks
      exact .head ⟨command, equal.body here ▸ inBody, named⟩ inductionHypothesis

theorem EqualBut.inUse {key : Kind × String} {program program' : Program}
    (equal : EqualBut key program program') (used : program.InUse key) : program'.InUse key := by
  obtain ⟨first, member, leads⟩ := used
  exact ⟨first, equal.entryNames ▸ member, equal.leadsTo leads⟩

/-- Whether a name is in use does not hang on what it stands for. -/
theorem EqualBut.inUse_iff {key : Kind × String} {program program' : Program}
    (equal : EqualBut key program program') : program.InUse key ↔ program'.InUse key :=
  ⟨equal.inUse, equal.symm.inUse⟩

end Program

end Sequencer
