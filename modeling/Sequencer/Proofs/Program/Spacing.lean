import Sequencer.Proofs.Program.Markers
import Sequencer.Proofs.Text.Spacing

/-! # Sources that differ in their spacing

Markers, names, annotations and commands are cut out of the text of a line, but what they are depends
on its words alone. So two sources with the same words on each line are read alike: `read_respaced`.
The normal form of a source has nothing else than its words, one space apart, and is read like the
source: `read_normalForm`.
-/

namespace Sequencer

open Text

/-! ## Headers -/

namespace Header

/-- The same effects, or two unreadable texts with the same words. -/
inductive Respaced : Except String (List (Effect Float)) → Except String (List (Effect Float)) → Prop
  | ok (effects) : Respaced (.ok effects) (.ok effects)
  | error {text text' : String} : words text.toList = words text'.toList →
      Respaced (.error text) (.error text')

theorem Respaced.cons {left right : Except String (List (Effect Float))}
    (respaced : Respaced left right) (effect : Effect Float) :
    Respaced (left.map (effect :: ·)) (right.map (effect :: ·)) := by
  cases respaced with
  | ok effects => exact .ok (effect :: effects)
  | error same => exact .error same

theorem effect?_congr {inner inner' : List Char} (same : words inner = words inner') :
    effect? inner = effect? inner' := by
  rw [effect?, effect?, same]

theorem dropWhile_isClosing_of_not_mem {body : List Char} (absent : ')' ∉ body) :
    body.dropWhile (!isClosing ·) = [] := by
  rw [List.dropWhile_eq_nil_iff]
  intro character member
  simp only [isClosing, Bool.not_eq_true', beq_eq_false_iff_ne, ne_eq]
  rintro rfl
  exact absent member

/-- A header is read by its words, from one effect to the next. -/
theorem read_respaced {text text' : List Char} (same : words text = words text') :
    Respaced (read text) (read text') := by
  induction length : text.length using Nat.strong_induction_on generalizing text text' with
  | _ size inductionHypothesis =>
    have started : words (trimStart text) = words (trimStart text') := by
      rw [words_trimStart, words_trimStart, same]
    rw [read_eq, read_eq text']
    rcases cases_of_words_eq (head_trimStart text) (head_trimStart text') started with
      ⟨empty, empty'⟩ | ⟨first, body, body', start, start', ink, sameBody⟩
    · rw [empty, empty']
      exact .ok []
    · rw [start, start'] at started ⊢
      have quoted : words (String.ofList (first :: body)).toList =
          words (String.ofList (first :: body')).toList := by simpa using started
      by_cases opens : first = '('
      · subst opens
        by_cases closes : ')' ∈ body
        · obtain ⟨inner, rest, rfl, notClosed⟩ := List.eq_append_cons_of_mem closes
          obtain ⟨inner', rest', rfl, notClosed'⟩ := exists_split (by decide) sameBody
          obtain ⟨taken, dropped⟩ := takeWhile_isClosing notClosed rest
          obtain ⟨taken', dropped'⟩ := takeWhile_isClosing notClosed' rest'
          have sameInner := words_front_congr (by decide) notClosed notClosed' sameBody
          have sameRest := words_behind_congr (by decide) notClosed notClosed' sameBody
          simp only [taken, taken', dropped, dropped', effect?_congr sameInner]
          cases effect? inner' with
          | none =>
            -- what is quoted begins at the opening parenthesis, which may start a longer word
            have outside : ∀ {inner : List Char}, ')' ∉ inner → ')' ∉ '(' :: inner := by simp
            have through := words_through_congr (by decide) (outside notClosed) (outside notClosed')
              started
            exact .error (by simpa using through)
          | some effect =>
            have shorter : rest.length < size := by
              have whole := length_dropWhile_le isBlank text
              rw [← trimStart, start] at whole
              simp only [List.length_cons, List.length_append] at whole
              omega
            exact (inductionHypothesis rest.length shorter sameRest rfl).cons effect
        · have closes' : ')' ∉ body' := by
            rwa [mem_iff_mem_words (by decide), ← sameBody, ← mem_iff_mem_words (by decide)]
          simp only [dropWhile_isClosing_of_not_mem closes, dropWhile_isClosing_of_not_mem closes']
          exact .error quoted
      · split
        · next empty => cases empty
        · next bracket => exact absurd (List.cons.inj bracket).1 opens
        · split
          · next empty => cases empty
          · next bracket => exact absurd (List.cons.inj bracket).1 opens
          · exact .error quoted

end Header

/-! ## Rows -/

namespace Row

/-- Rows that differ in their spacing: in that of a command, or of the effects of a header. -/
inductive Respaced : Row → Row → Prop
  | opening (kind name) {written written'} : words written = words written' →
      Respaced (.opening kind name written) (.opening kind name written')
  | ending (kind) : Respaced (.ending kind) (.ending kind)
  | command {text text'} : words text = words text' → Respaced (.command text) (.command text')

theorem ofName?_respaced (kind : Kind) (name : List Char) {rest rest' : List Char}
    (same : words rest = words rest') :
    Option.Rel Respaced (ofName? kind name rest) (ofName? kind name rest') := by
  rw [ofName?, ofName?]
  split
  · exact .none
  · split
    · exact .some (.ending kind)
    · exact .some (.opening kind _ same)

/-- Between brackets stands a word, or what is no name either way. -/
theorem ofName?_trim_respaced (kind : Kind) {front front' rest rest' : List Char}
    (sameFront : words front = words front') (sameRest : words rest = words rest') :
    Option.Rel Respaced (ofName? kind (trim front) (trim rest))
      (ofName? kind (trim front') (trim rest')) := by
  have trimmed : words (trim rest) = words (trim rest') := by
    rw [words_trim, words_trim, sameRest]
  by_cases named : ∃ word, words front = [word]
  · obtain ⟨word, alone⟩ := named
    have alone' : words front' = [word] := sameFront ▸ alone
    rw [trim_eq_of_words alone, trim_eq_of_words alone']
    exact ofName?_respaced kind word trimmed
  · have nameless := (isWord_trim_iff front).not.mpr named
    have nameless' := (isWord_trim_iff front').not.mpr (sameFront ▸ named)
    rw [(ofName?_eq_none_iff kind _ _).mpr nameless, (ofName?_eq_none_iff kind _ _).mpr nameless']
    exact .none

theorem bracketed_respaced (kind : Kind) {text text' : List Char} (same : words text = words text') :
    Option.Rel Respaced
      ((bracketed? kind text).bind fun found => ofName? kind found.1 found.2)
      ((bracketed? kind text').bind fun found => ofName? kind found.1 found.2) := by
  rcases split_at_closer kind text with open_ | ⟨front, rest, rfl, absent⟩
  · have open' : kind.closer ∉ text' := by
      rwa [mem_iff_mem_words kind.isInk_closer, ← same, ← mem_iff_mem_words kind.isInk_closer]
    rw [bracketed?_eq_none open_, bracketed?_eq_none open']
    exact .none
  · obtain ⟨front', rest', rfl, absent'⟩ := exists_split kind.isInk_closer same
    rw [bracketed?_append absent, bracketed?_append absent']
    exact ofName?_trim_respaced kind (words_front_congr kind.isInk_closer absent absent' same)
      (words_behind_congr kind.isInk_closer absent absent' same)

theorem marker?_respaced (first : Char) {text text' : List Char} (same : words text = words text') :
    Option.Rel Respaced (marker? (first :: text)) (marker? (first :: text')) := by
  rw [marker?_cons, marker?_cons]
  cases Kind.ofOpener? first with
  | none => exact .none
  | some kind => exact bracketed_respaced kind same

theorem ofLine?_respaced {line line' : List Char}
    (same : words (withoutComment line) = words (withoutComment line')) :
    Option.Rel Respaced (ofLine? line) (ofLine? line') := by
  have trimmed : words (trim (withoutComment line)) = words (trim (withoutComment line')) := by
    rw [words_trim, words_trim, same]
  rw [ofLine?, ofLine?]
  rcases cases_of_words_eq (head_trim _) (head_trim _) trimmed with
    ⟨empty, empty'⟩ | ⟨first, rest, rest', start, start', -, sameRest⟩
  · rw [empty, empty']
    exact .none
  · rw [start, start'] at trimmed ⊢
    have rows := marker?_respaced first sameRest
    dsimp only
    -- a line that is no marker is a command, with the bracket in front if there is one
    generalize marker? (first :: rest) = row at rows ⊢
    generalize marker? (first :: rest') = row' at rows ⊢
    cases rows with
    | none => exact .some (.command trimmed)
    | some respaced => exact .some respaced

end Row

/-! ## Programs -/

/-- The same note, or the same note about texts with the same words. -/
inductive Irregularity.Respaced : Irregularity → Irregularity → Prop
  | same (irregularity) : Respaced irregularity irregularity
  | quoted (line) {text text' : String} : words text.toList = words text'.toList →
      Respaced (.unreadableEffect line text) (.unreadableEffect line text')

theorem Irregularity.respaced_refl (irregularities : List Irregularity) :
    List.Forall₂ Irregularity.Respaced irregularities irregularities :=
  List.forall₂_same.mpr fun irregularity _ => .same irregularity

namespace Program

/-- Equal programs but for the spacing in the texts that are quoted from headers. -/
structure Respaced (left right : Program) : Prop where
  globals : left.globals = right.globals
  blocks : left.blocks = right.blocks
  customSamples : left.customSamples = right.customSamples
  irregularities : List.Forall₂ Irregularity.Respaced left.irregularities right.irregularities

namespace Draft

structure Respaced (left right : Draft) : Prop where
  globals : left.globals = right.globals
  definitions : ∀ kind, left.definitions kind = right.definitions kind
  opened : left.opened = right.opened
  irregularities :
    List.Forall₂ Irregularity.Respaced left.irregularities.toList right.irregularities.toList

theorem ofText_congr (line : Nat) {text text' : List Char} (same : words text = words text') :
    Command.ofText line text = Command.ofText line text' := by
  rw [Command.ofText, Command.ofText, same]

theorem unreadable_respaced (line : Nat) {written written' : List Char}
    (same : words written = words written') :
    readableEffects written = readableEffects written' ∧
      List.Forall₂ Irregularity.Respaced (unreadable line written) (unreadable line written') := by
  have respaced := Header.read_respaced same
  rw [readableEffects, readableEffects, unreadable, unreadable]
  generalize Header.read written = read at respaced ⊢
  generalize Header.read written' = read' at respaced ⊢
  cases respaced with
  | ok effects => exact ⟨rfl, .nil⟩
  | error sameText => exact ⟨rfl, .cons (.quoted line sameText) .nil⟩

namespace Respaced

variable {left right : Draft} (respaced : left.Respaced right)

include respaced

theorem declared (kind : Kind) : left.declared kind = right.declared kind := by
  simp only [Draft.declared, respaced.opened, respaced.definitions]

theorem redeclared (line : Nat) : left.redeclared line = right.redeclared line := by
  simp only [Draft.redeclared, respaced.opened, respaced.definitions]

theorem irregularities_append {added added' : List Irregularity}
    (also : List.Forall₂ Irregularity.Respaced added added') :
    List.Forall₂ Irregularity.Respaced (left.irregularities.toList ++ added)
      (right.irregularities.toList ++ added') :=
  List.rel_append respaced.irregularities also

theorem note (irregularity : Irregularity) :
    (left.note irregularity).Respaced (right.note irregularity) := by
  refine ⟨respaced.globals, fun kind => ?_, respaced.opened, ?_⟩
  · simp [respaced.definitions]
  · simpa [Draft.note] using
      respaced.irregularities_append (Irregularity.respaced_refl [irregularity])

theorem closeWith (line : Nat) (notice : Opened → Option Irregularity) :
    (left.closeWith line notice).Respaced (right.closeWith line notice) := by
  refine ⟨?_, fun kind => ?_, ?_, ?_⟩
  · simp [respaced.globals]
  · simp [respaced.declared]
  · simp
  · rw [irregularities_closeWith, irregularities_closeWith, respaced.opened, respaced.redeclared,
      List.append_assoc, List.append_assoc]
    exact respaced.irregularities_append (Irregularity.respaced_refl _)

theorem openDefinition (line : Nat) (kind : Kind) (name : String) {written written' : List Char}
    (same : words written = words written') :
    (left.openDefinition line kind name written).Respaced
      (right.openDefinition line kind name written') := by
  obtain ⟨effects, notes⟩ := unreadable_respaced line same
  refine ⟨?_, fun kind => ?_, ?_, ?_⟩
  · simp [respaced.globals]
  · simp [respaced.declared]
  · simp [effects]
  · rw [irregularities_openDefinition, irregularities_openDefinition, respaced.opened,
      respaced.redeclared, List.append_assoc, List.append_assoc, List.append_assoc,
      List.append_assoc, ← List.append_assoc _ (right.redeclared line),
      ← List.append_assoc _ (right.redeclared line)]
    exact respaced.irregularities_append (List.rel_append (Irregularity.respaced_refl _) notes)

theorem endDefinition (line : Nat) (kind : Kind) :
    (left.endDefinition line kind).Respaced (right.endDefinition line kind) := by
  rw [Draft.endDefinition, Draft.endDefinition, respaced.opened]
  split
  · exact respaced.note _
  · exact respaced.closeWith line _

theorem addCommand (command : Command) :
    (left.addCommand command).Respaced (right.addCommand command) := by
  rw [Draft.addCommand, Draft.addCommand, ← respaced.opened]
  cases found : left.opened with
  | none =>
    refine ⟨by simp [respaced.globals], fun kind => ?_, rfl, respaced.irregularities⟩
    simpa only [definitions_mk] using respaced.definitions kind
  | some opened =>
    refine ⟨respaced.globals, fun kind => ?_, rfl, respaced.irregularities⟩
    simpa only [definitions_mk] using respaced.definitions kind

theorem addRow (line : Nat) {row row' : Row} (rows : row.Respaced row') :
    (left.addRow line row).Respaced (right.addRow line row') := by
  cases rows with
  | opening kind name same => exact respaced.openDefinition line kind name same
  | ending kind => exact respaced.endDefinition line kind
  | command same =>
    rw [Draft.addRow, Draft.addRow, ofText_congr line same]
    exact respaced.addCommand _

theorem addLine (line : Nat) {text text' : List Char}
    (same : words (withoutComment text) = words (withoutComment text')) :
    (left.addLine (line, text)).Respaced (right.addLine (line, text')) := by
  have rows := Row.ofLine?_respaced same
  rw [Draft.addLine, Draft.addLine]
  dsimp only
  generalize Row.ofLine? text = row at rows ⊢
  generalize Row.ofLine? text' = row' at rows ⊢
  cases rows with
  | none => exact respaced
  | some rows => exact respaced.addRow line rows

theorem finish (lastLine : Nat) : (left.finish lastLine).Respaced (right.finish lastLine) := by
  have closed := respaced.closeWith lastLine fun opened => some (.unterminated opened.name opened.kind)
  refine ⟨?_, closed.definitions .block, closed.definitions .customSample, closed.irregularities⟩
  exact congrArg Array.toList closed.globals

end Respaced

theorem respaced_foldl {left right : Draft} (respaced : left.Respaced right)
    {lines lines' : List (Nat × List Char)}
    (same : List.Forall₂ (fun line line' => line.1 = line'.1 ∧
      words (withoutComment line.2) = words (withoutComment line'.2)) lines lines') :
    (lines.foldl Draft.addLine left).Respaced (lines'.foldl Draft.addLine right) := by
  induction same generalizing left right with
  | nil => exact respaced
  | @cons line line' _ _ first _ inductionHypothesis =>
    obtain ⟨number, text⟩ := line
    obtain ⟨_, text'⟩ := line'
    obtain ⟨rfl, sameText⟩ := first
    exact inductionHypothesis (respaced.addLine number sameText)

end Draft

/-! ## Sources -/

/-- The words of each line, without its comment. -/
def wordsByLine (source : String) : List (List (List Char)) :=
  (lines source.toList).map fun line => words (withoutComment line)

theorem forall₂_numbered {rows rows' : List (List Char)}
    (same : rows.map (words <| withoutComment ·) = rows'.map (words <| withoutComment ·)) :
    List.Forall₂ (fun line line' => line.1 = line'.1 ∧
      words (withoutComment line.2) = words (withoutComment line'.2))
      (numbered rows) (numbered rows') := by
  have lengths : rows.length = rows'.length := by simpa using congrArg List.length same
  refine List.forall₂_iff_get.mpr ⟨by simp [numbered, lengths], fun index bound bound' => ?_⟩
  have each := congrArg (·[index]?) same
  simp only [numbered, List.length_mapIdx] at bound bound'
  simpa [numbered, bound, bound'] using each

/-- Sources with the same words on each line are read alike. -/
theorem read_respaced {left right : String} (same : wordsByLine left = wordsByLine right) :
    (read left).Respaced (read right) := by
  have lengths : (lines left.toList).length = (lines right.toList).length := by
    simpa [wordsByLine] using congrArg List.length same
  have start : Draft.empty.Respaced Draft.empty := ⟨rfl, fun _ => rfl, rfl, .nil⟩
  have finished := (Draft.respaced_foldl start (forall₂_numbered same)).finish
    (lines left.toList).length
  rw [read, read, ← lengths]
  exact finished

/-- Each line with its words only, one space apart. -/
def normalForm (source : String) : String :=
  unlines ((wordsByLine source).map fun row => joinWords (row.map String.ofList))

theorem wordsByLine_normalForm (source : String) :
    wordsByLine (normalForm source) = wordsByLine source := by
  have tokens : ∀ row ∈ wordsByLine source, ∀ word ∈ row, IsToken word := by
    intro row member word inside
    obtain ⟨line, -, rfl⟩ := List.mem_map.mp member
    exact isToken_of_mem_words (commentFree_withoutComment line) inside
  have written : ∀ row : List (List Char), (joinWords (row.map String.ofList)).toList = joined row := by
    intro row
    rw [toList_joinWords]
    simp
  have unbroken : ∀ line ∈ (wordsByLine source).map fun row => joinWords (row.map String.ofList),
      ∀ character ∈ line.toList, isLineEnd character = false := by
    intro line member
    obtain ⟨row, rowMember, rfl⟩ := List.mem_map.mp member
    rw [written]
    apply isLineEnd_of_mem_joined
    intro word inside character inWord
    exact isLineEnd_of_isInk ((tokens row rowMember word inside).isWord.2 character inWord)
  rw [normalForm, wordsByLine, lines_unlines unbroken, List.map_map, List.map_map]
  nth_rewrite 2 [← List.map_id (wordsByLine source)]
  refine List.map_congr_left fun row member => ?_
  have free := commentFree_joined fun word inside => (tokens row member word inside).commentFree
  simp only [Function.comp_apply, written, withoutComment_eq free, id_eq]
  exact words_joined fun word inside => (tokens row member word inside).isWord

/-- The normal form of a source is read like the source, and so is every source of the same normal
form: the commands with their lines, the definitions in their order and their effects are equal, and
so are the notes, but for the spacing of what they quote. -/
theorem read_normalForm (source : String) :
    (read (normalForm source)).Respaced (read source) ∧
      ∀ other, normalForm other = normalForm source → (read other).Respaced (read source) := by
  refine ⟨read_respaced (wordsByLine_normalForm source), fun other same => read_respaced ?_⟩
  rw [← wordsByLine_normalForm other, same, wordsByLine_normalForm]

/-- Tabs, a no-break space, a comment and carriage returns, and a header that cannot be read. -/
def loose : String := "\tbpm  90 // slowly\r\n[ lead ]\u00a0(reverb 0.5)(delay \t wet)\r\n[end]  here"

def tidy : String := "bpm 90\n[ lead ] (reverb 0.5)(delay wet)\n[end] here\n"

theorem read_normalForm_loose :
    normalForm loose = normalForm tidy ∧ (read loose).Respaced (read tidy) ∧
      (read loose).irregularities = [.unreadableEffect 2 "(delay \t wet)"] ∧
      (read tidy).irregularities = [.unreadableEffect 2 "(delay wet)"] := by
  have same : normalForm loose = normalForm tidy := by decide +kernel
  exact ⟨same, (read_normalForm tidy).2 loose same, by decide +kernel, by decide +kernel⟩

end Program

end Sequencer
