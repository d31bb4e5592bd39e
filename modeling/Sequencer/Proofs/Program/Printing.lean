import Sequencer.Proofs.Program.Legible

/-! # Rows of the canonical form

A legible program is written line by line, and each line is the row it was written for:
`rows_print`.
-/

namespace Sequencer

open Text

/-! ## Lines of the canonical form -/

theorem isLineEnd_of_isInk {character : Char} (ink : isInk character = true) :
    isLineEnd character = false := by
  rw [isLineEnd, beq_eq_false_iff_ne]
  rintro rfl
  exact absurd ink (by decide)

theorem isLineEnd_of_mem_spaced {row : List (List Char)}
    (unbroken : ∀ piece ∈ row, ∀ character ∈ piece, isLineEnd character = false) :
    ∀ character ∈ spaced row, isLineEnd character = false := by
  intro character member
  obtain ⟨piece, pieceMember, member⟩ := List.mem_flatMap.mp member
  rcases List.mem_cons.mp member with rfl | member
  · rfl
  · exact unbroken piece pieceMember character member

theorem isLineEnd_of_mem_joined {row : List (List Char)}
    (unbroken : ∀ piece ∈ row, ∀ character ∈ piece, isLineEnd character = false) :
    ∀ character ∈ joined row, isLineEnd character = false := by
  cases row with
  | nil => simp [joined_nil]
  | cons first rest =>
    intro character member
    apply isLineEnd_of_mem_spaced unbroken
    rw [spaced_cons]
    exact List.mem_cons_of_mem _ member

theorem Command.Legible.unbroken {command : Command} (legible : command.Legible) :
    ∀ character ∈ command.text.toList, isLineEnd character = false := by
  rw [Command.toList_text]
  apply isLineEnd_of_mem_joined
  intro word member character inside
  exact isLineEnd_of_isInk ((legible.isWord word member).2 character inside)

theorem Effect.Legible.unbroken {effect : Effect Float} (legible : effect.Legible) :
    ∀ character ∈ effect.text.toList, isLineEnd character = false := by
  have inner : ∀ character ∈ effect.inner, isLineEnd character = false := by
    apply isLineEnd_of_mem_joined
    intro word member character inside
    exact isLineEnd_of_isInk ((legible.isInner word member).isWord.2 character inside)
  rw [Effect.toList_text]
  intro character member
  rcases List.mem_append.mp member with member | member
  · rcases List.mem_cons.mp member with rfl | member
    · rfl
    · exact inner character member
  · rw [List.mem_singleton.mp member]
    rfl

namespace Program

theorem unbroken_marker {kind : Kind} {name : String}
    (ink : ∀ character ∈ name.toList, isInk character = true) :
    ∀ character ∈ (marker kind name).toList, isLineEnd character = false := by
  intro character member
  rw [Row.toList_marker] at member
  apply isLineEnd_of_isInk
  rcases List.mem_append.mp member with member | member
  · rcases List.mem_cons.mp member with rfl | member
    · exact kind.isInk_opener
    · exact ink character member
  · rw [List.mem_singleton.mp member]
    exact kind.isInk_closer

theorem unbroken_paragraph {kind : Kind} {definition : Definition}
    (legible : definition.Legible kind) :
    ∀ row ∈ paragraph kind definition, ∀ character ∈ row.toList, isLineEnd character = false := by
  intro row member
  rw [paragraph, List.mem_append, List.mem_cons, List.mem_map, List.mem_singleton] at member
  rcases member with (rfl | ⟨command, commandMember, rfl⟩) | rfl
  -- the header, an indented command and the end marker
  · rw [Row.toList_header, ← Row.toList_marker]
    apply isLineEnd_of_mem_joined
    intro piece pieceMember
    rcases List.mem_cons.mp pieceMember with rfl | pieceMember
    · exact unbroken_marker legible.name.isWord.2
    · obtain ⟨effect, effectMember, rfl⟩ := List.mem_map.mp pieceMember
      exact (legible.effects effect effectMember).unbroken
  · intro character inside
    rw [indented, String.toList_append, List.mem_append] at inside
    rcases inside with blank | inside
    · obtain rfl : character = ' ' := by simpa using blank
      rfl
    · exact (legible.commands command commandMember).unbroken character inside
  · apply unbroken_marker
    intro character inside
    have letters : character = 'e' ∨ character = 'n' ∨ character = 'd' := by simpa using inside
    rcases letters with rfl | rfl | rfl <;> decide

theorem unbroken_paragraphs {program : Program} (legible : program.Legible) :
    ∀ rows ∈ program.paragraphs, ∀ row ∈ rows, ∀ character ∈ row.toList,
      isLineEnd character = false := by
  intro rows member
  rw [paragraphs, List.mem_append, List.mem_append, List.mem_map, List.mem_map] at member
  rcases member with (globals | ⟨definition, definitionMember, rfl⟩) |
    ⟨definition, definitionMember, rfl⟩
  · split at globals
    · cases globals
    · rw [List.mem_singleton.mp globals]
      intro row rowMember
      obtain ⟨command, commandMember, rfl⟩ := List.mem_map.mp rowMember
      exact (legible.globals command commandMember).unbroken
  · exact unbroken_paragraph (legible.definitions .customSample definition definitionMember)
  · exact unbroken_paragraph (legible.definitions .block definition definitionMember)

theorem lines_print {program : Program} (legible : program.Legible) :
    lines program.print.toList = ([""].intercalate program.paragraphs).map String.toList := by
  apply lines_unlines
  intro row member
  cases found : program.paragraphs with
  | nil => simp [found] at member
  | cons first rest =>
    have unbroken := unbroken_paragraphs legible
    rw [found] at unbroken member
    -- between paragraphs stands one empty line
    rw [intercalate_cons, List.mem_append, List.mem_flatMap] at member
    rcases member with member | ⟨rows, rowsMember, member⟩
    · exact unbroken first List.mem_cons_self row member
    · rcases List.mem_cons.mp member with rfl | member
      · simp
      · exact unbroken rows (List.mem_cons_of_mem _ rowsMember) row member

/-! ## Rows of the canonical form -/

def commandRow (command : Command) : Row := .command command.text.toList

def definitionRows (kind : Kind) (definition : Definition) : List Row :=
  .opening kind definition.name (joined (definition.effects.map (·.text.toList))) ::
    definition.commands.map commandRow ++ [.ending kind]

def rows (program : Program) : List Row :=
  program.globals.map commandRow ++
    program.customSamples.flatMap (definitionRows .customSample) ++
      program.blocks.flatMap (definitionRows .block)

/-- The rows of written lines. -/
def readRows (written : List String) : List Row :=
  written.filterMap fun line => Row.ofLine? line.toList

theorem readRows_cons {first : String} {row : Row} (found : Row.ofLine? first.toList = some row)
    (rest : List String) : readRows (first :: rest) = row :: readRows rest := by
  simp [readRows, found]

theorem readRows_append (left right : List String) :
    readRows (left ++ right) = readRows left ++ readRows right :=
  List.filterMap_append

theorem readRows_map {α : Type} {items : List α} {write : α → String} {row : α → Row}
    (reads : ∀ item ∈ items, Row.ofLine? (write item).toList = some (row item)) :
    readRows (items.map write) = items.map row := by
  induction items with
  | nil => rfl
  | cons first rest inductionHypothesis =>
    rw [List.map_cons, readRows_cons (reads first List.mem_cons_self), List.map_cons,
      inductionHypothesis fun item member => reads item (List.mem_cons_of_mem _ member)]

theorem readRows_paragraph {kind : Kind} {definition : Definition}
    (legible : definition.Legible kind) :
    readRows (paragraph kind definition) = definitionRows kind definition := by
  have commands : readRows (definition.commands.map indented) = definition.commands.map commandRow :=
    readRows_map fun command member => Row.ofLine?_indented (legible.commands command member)
  rw [paragraph, List.cons_append, readRows_cons (Row.ofLine?_header legible), readRows_append,
    commands, readRows_cons (Row.ofLine?_end kind)]
  rfl

/-- Blank lines between paragraphs are no rows. -/
theorem readRows_intercalate (paragraphs : List (List String)) :
    readRows ([""].intercalate paragraphs) = paragraphs.flatMap readRows := by
  have spread : ∀ rest : List (List String),
      readRows (rest.flatMap ([""] ++ ·)) = rest.flatMap readRows := by
    intro rest
    induction rest with
    | nil => rfl
    | cons first rest inductionHypothesis =>
      rw [List.flatMap_cons, List.flatMap_cons, readRows_append, inductionHypothesis]
      rfl
  cases paragraphs with
  | nil => rfl
  | cons first rest => rw [intercalate_cons, readRows_append, spread, List.flatMap_cons]

theorem rows_print {program : Program} (legible : program.Legible) :
    (lines program.print.toList).filterMap Row.ofLine? = program.rows := by
  have globals : readRows (program.globals.map Command.text) = program.globals.map commandRow :=
    readRows_map fun command member => Row.ofLine?_command (legible.globals command member)
  -- no globals are no paragraph, which reads as no rows just as well
  have globalRows : (if program.globals.isEmpty then [] else [program.globals.map Command.text]).flatMap
      readRows = program.globals.map commandRow := by
    cases found : program.globals with
    | nil => rfl
    | cons first rest =>
      rw [← found, globals.symm]
      simp [found]
  have definitionsRows : ∀ kind, ((program.definitions kind).map (paragraph kind)).flatMap readRows =
      (program.definitions kind).flatMap (definitionRows kind) := by
    intro kind
    rw [List.flatMap_map]
    exact List.flatMap_congr fun definition member =>
      readRows_paragraph (legible.definitions kind definition member)
  rw [lines_print legible, List.filterMap_map]
  change readRows ([""].intercalate program.paragraphs) = program.rows
  rw [readRows_intercalate, paragraphs, List.flatMap_append, List.flatMap_append, globalRows, rows]
  exact congrArg₂ _ (congrArg₂ _ rfl (definitionsRows .customSample)) (definitionsRows .block)

end Program

end Sequencer
