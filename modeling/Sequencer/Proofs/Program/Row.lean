import Sequencer.Proofs.Program.Header
import Sequencer.Program.Marker
import Sequencer.Program.Printing

/-! # Rows that read back

What is read from a row is legible, and legible commands and markers are read back from the rows
they are written to. Whether a row is a marker depends on its words alone: `marker?_congr`.
-/

namespace Sequencer

open Text

/-! ## Brackets -/

namespace Kind

theorem isInk_opener (kind : Kind) : isInk kind.opener = true := by
  cases kind <;> decide

theorem isInk_closer (kind : Kind) : isInk kind.closer = true := by
  cases kind <;> decide

theorem opener_ne_slash (kind : Kind) : kind.opener ≠ '/' := by
  cases kind <;> decide

theorem closer_ne_slash (kind : Kind) : kind.closer ≠ '/' := by
  cases kind <;> decide

theorem ofOpener?_opener (kind : Kind) : ofOpener? kind.opener = some kind := by
  cases kind <;> rfl

end Kind

namespace Row

theorem bracketed?_eq_none {kind : Kind} {text : List Char} (open_ : kind.closer ∉ text) :
    bracketed? kind text = none := by
  have none_left : text.dropWhile (· != kind.closer) = [] := by
    rw [List.dropWhile_eq_nil_iff]
    intro character member
    simp only [bne_iff_ne, ne_eq]
    rintro rfl
    exact open_ member
  rw [bracketed?, none_left]

theorem bracketed?_append {kind : Kind} {front : List Char} (inside : kind.closer ∉ front)
    (rest : List Char) :
    bracketed? kind (front ++ kind.closer :: rest) = some (trim front, trim rest) := by
  have passes : ∀ character ∈ front, (character != kind.closer) = true := by
    intro character member
    simp only [bne_iff_ne, ne_eq]
    rintro rfl
    exact inside member
  have taken : (front ++ kind.closer :: rest).takeWhile (· != kind.closer) = front := by
    simp [List.takeWhile_append_of_pos passes]
  have dropped : (front ++ kind.closer :: rest).dropWhile (· != kind.closer) =
      kind.closer :: rest := by
    simp [List.dropWhile_append_of_pos passes]
  rw [bracketed?, dropped, taken]

/-- A text without the mark, or one that is cut at the first mark. -/
theorem split_at_closer (kind : Kind) (text : List Char) :
    kind.closer ∉ text ∨
      ∃ front rest, text = front ++ kind.closer :: rest ∧ kind.closer ∉ front := by
  by_cases member : kind.closer ∈ text
  · obtain ⟨front, rest, rfl, absent⟩ := List.eq_append_cons_of_mem member
    exact Or.inr ⟨front, rest, rfl, absent⟩
  · exact Or.inl member

/-! ## Markers -/

theorem isWord_iff (name : List Char) :
    (name.isEmpty || name.any isBlank) = false ↔ IsWord name := by
  simp [IsWord, isInk]

theorem isWord_trim_iff (text : List Char) :
    IsWord (trim text) ↔ ∃ word, words text = [word] := by
  constructor
  · intro isWord
    exact ⟨trim text, by rw [← words_trim, isWord.words_eq]⟩
  · rintro ⟨word, alone⟩
    rw [trim_eq_of_words alone]
    have member : word ∈ words text := alone ▸ List.mem_singleton_self word
    exact isWord_of_mem_words member

/-- The row that a name between brackets makes. -/
def ofName? (kind : Kind) (name rest : List Char) : Option Row :=
  if name.isEmpty || name.any isBlank then none
  else if name == endWord then some (.ending kind)
  else some (.opening kind (String.ofList name) rest)

theorem marker?_cons (first : Char) (text : List Char) :
    marker? (first :: text) =
      (Kind.ofOpener? first).bind fun kind =>
        (bracketed? kind text).bind fun found => ofName? kind found.1 found.2 := rfl

theorem ofName?_eq_none_iff (kind : Kind) (name rest : List Char) :
    ofName? kind name rest = none ↔ ¬ IsWord name := by
  rw [← isWord_iff, ofName?]
  cases (name.isEmpty || name.any isBlank) with
  | true => simp
  | false =>
    simp only [Bool.false_eq_true, if_false, not_true, iff_false]
    split <;> simp

/-- No marker without its closing bracket, nor unless one word stands within. -/
theorem marker?_eq_none_iff {kind : Kind} {first : Char} (opens : Kind.ofOpener? first = some kind)
    (text : List Char) :
    marker? (first :: text) = none ↔
      (kind.closer ∈ text → ∀ word, words (text.takeWhile (· != kind.closer)) ≠ [word]) := by
  rw [marker?_cons, opens, Option.bind_some]
  -- without the closing bracket nothing stands between brackets
  rcases split_at_closer kind text with absent | ⟨front, rest, rfl, absent⟩
  · simp [bracketed?_eq_none absent, absent]
  · rw [bracketed?_append absent, Option.bind_some, ofName?_eq_none_iff, isWord_trim_iff,
      takeWhile_append_of_not_mem absent]
    simp

theorem marker?_congr {first : Char} (ink : isInk first = true) {left right : List Char}
    (same : words (first :: left) = words (first :: right))
    (noMarker : marker? (first :: left) = none) : marker? (first :: right) = none := by
  cases opens : Kind.ofOpener? first with
  | none => rw [marker?_cons, opens, Option.bind_none]
  | some kind =>
    have rest := words_rest ink same
    rw [marker?_eq_none_iff opens] at noMarker ⊢
    rw [words_takeWhile kind.isInk_closer, ← rest, ← words_takeWhile kind.isInk_closer]
    intro member
    apply noMarker
    rw [mem_iff_mem_words kind.isInk_closer] at member ⊢
    rwa [rest]

end Row

/-! ## Legible commands and definitions -/

structure Command.Legible (command : Command) : Prop where
  nonempty : command.words ≠ []
  tokens : ∀ word ∈ command.words, IsToken word.toList
  noMarker : Row.marker? command.text.toList = none

/-- A name that a bracket can hold. -/
structure IsName (kind : Kind) (name : String) : Prop extends IsToken name.toList where
  notClosed : kind.closer ∉ name.toList
  notEnd : name.toList ≠ Row.endWord

structure Definition.Legible (kind : Kind) (definition : Definition) : Prop where
  name : IsName kind definition.name
  commands : ∀ command ∈ definition.commands, command.Legible
  effects : ∀ effect ∈ definition.effects, effect.Legible

namespace Command

variable {command : Command}

theorem toList_text (command : Command) :
    command.text.toList = joined (command.words.map String.toList) :=
  toList_joinWords command.words

theorem Legible.isWord (legible : command.Legible) :
    ∀ word ∈ command.words.map String.toList, IsWord word := by
  intro word member
  obtain ⟨string, stringMember, rfl⟩ := List.mem_map.mp member
  exact (legible.tokens string stringMember).isWord

theorem Legible.words_text (legible : command.Legible) :
    Text.words command.text.toList = command.words.map String.toList := by
  rw [toList_text, words_joined legible.isWord]

theorem Legible.commentFree (legible : command.Legible) : CommentFree command.text.toList := by
  rw [toList_text]
  apply commentFree_joined
  intro word member
  obtain ⟨string, stringMember, rfl⟩ := List.mem_map.mp member
  exact (legible.tokens string stringMember).commentFree

theorem Legible.words_ofText (legible : command.Legible) (line : Nat) :
    (ofText line command.text.toList).words = command.words := by
  change (Text.words command.text.toList).map String.ofList = command.words
  rw [legible.words_text]
  simp

theorem Legible.tight_text (legible : command.Legible) : Tight command.text.toList := by
  rw [toList_text]
  obtain ⟨first, rest, words_eq⟩ := List.exists_cons_of_ne_nil legible.nonempty
  have isWord := legible.isWord
  rw [words_eq, List.map_cons] at isWord ⊢
  exact tight_joined (isWord first.toList List.mem_cons_self).tight
    fun word member => (isWord word (List.mem_cons_of_mem _ member)).tight

end Command

/-! ## What rows hold -/

namespace Row

theorem ofName?_ne_command (kind : Kind) (name rest text : List Char) :
    ofName? kind name rest ≠ some (.command text) := by
  rw [ofName?]
  split
  · simp
  · split <;> simp

theorem marker?_ne_command (line text : List Char) : marker? line ≠ some (.command text) := by
  cases line with
  | nil => simp [marker?]
  | cons first rest =>
    rw [marker?_cons]
    intro found
    obtain ⟨kind, -, found⟩ := Option.bind_eq_some_iff.mp found
    obtain ⟨pair, -, found⟩ := Option.bind_eq_some_iff.mp found
    exact ofName?_ne_command _ _ _ _ found

/-- The trimmed text of a line that anything stands on. -/
theorem ofLine?_eq_some {line : List Char} {row : Row} (found : ofLine? line = some row) :
    ∃ first rest, trim (withoutComment line) = first :: rest ∧ isInk first = true ∧
      CommentFree (first :: rest) ∧
        (marker? (first :: rest)).getD (.command (first :: rest)) = row := by
  rw [ofLine?] at found
  cases trimmed : trim (withoutComment line) with
  | nil => simp [trimmed] at found
  | cons first rest =>
    refine ⟨first, rest, rfl, isInk_of_trim trimmed, ?_, by simpa [trimmed] using found⟩
    rw [← trimmed]
    exact (commentFree_withoutComment line).of_isInfix (trim_isInfix _)

theorem legible_of_command {line text : List Char} (found : ofLine? line = some (.command text))
    (number : Nat) : (Command.ofText number text).Legible := by
  obtain ⟨first, rest, -, ink, free, row⟩ := ofLine?_eq_some found
  -- a line is a command only if it is no marker
  have noMarker : marker? (first :: rest) = none := by
    cases marker : marker? (first :: rest) with
    | none => rfl
    | some row' =>
      rw [marker, Option.getD_some] at row
      exact absurd (row ▸ marker) (marker?_ne_command _ _)
  obtain rfl : first :: rest = text := by simpa [noMarker] using row
  have areWords : ∀ word ∈ words (first :: rest), IsWord word :=
    fun word member => isWord_of_mem_words member
  have written : (Command.ofText number (first :: rest)).words.map String.toList =
      words (first :: rest) := by
    change ((words (first :: rest)).map String.ofList).map String.toList = _
    simp
  have front : words (first :: rest) = (first :: rest.takeWhile isInk) ::
      words (rest.dropWhile isInk) := by
    rw [words_eq, List.dropWhile_cons_of_neg (by simp [isInk_iff.mp ink])]
  refine ⟨?_, ?_, ?_⟩
  · intro empty
    rw [empty, front] at written
    cases written
  · intro word member
    apply isToken_of_mem_words free
    rw [← written]
    exact List.mem_map_of_mem member
  · rw [Command.toList_text, written]
    -- one space apart the words are those of the line, which was no marker
    have same := words_joined areWords
    rw [front] at same ⊢
    rw [joined_cons, List.cons_append] at same ⊢
    exact marker?_congr ink (front.trans same.symm) noMarker

theorem isName_of_opening {line written : List Char} {kind : Kind} {name : String}
    (found : ofLine? line = some (.opening kind name written)) :
    IsName kind name ∧ CommentFree written := by
  obtain ⟨first, rest, -, -, free, row⟩ := ofLine?_eq_some found
  cases marker : marker? (first :: rest) with
  | none => simp [marker] at row
  | some row' =>
    obtain rfl : row' = .opening kind name written := by simpa [marker] using row
    rw [marker?_cons] at marker
    obtain ⟨kind', opens, marker⟩ := Option.bind_eq_some_iff.mp marker
    rcases split_at_closer kind' rest with absent | ⟨front, behind, rfl, absent⟩
    · simp [bracketed?_eq_none absent] at marker
    · rw [bracketed?_append absent, Option.bind_some, ofName?] at marker
      split at marker
      · cases marker
      · next isWord =>
        split at marker
        · cases marker
        · next notEnd =>
          simp only [Option.some.injEq, Row.opening.injEq] at marker
          obtain ⟨rfl, rfl, rfl⟩ := marker
          -- what stands before and behind the bracket was kept, and so has no comment
          have freeFront : CommentFree front :=
            free.of_cons.of_isInfix (List.prefix_append _ _).isInfix
          have freeBehind : CommentFree (kind'.closer :: behind) :=
            free.of_cons.of_isInfix (List.suffix_append _ _).isInfix
          refine ⟨⟨⟨?_, ?_⟩, ?_, ?_⟩, freeBehind.of_cons.of_isInfix (trim_isInfix _)⟩
          · rw [String.toList_ofList]
            exact (isWord_iff _).mp (by simpa using isWord)
          · rw [String.toList_ofList]
            exact freeFront.of_isInfix (trim_isInfix _)
          · rw [String.toList_ofList]
            exact fun member => absent ((trim_isInfix _).subset member)
          · rw [String.toList_ofList]
            simpa using notEnd

/-! ## Reading rows back -/

theorem ofLine?_tight {blanks text : List Char} (free : CommentFree (blanks ++ text))
    (blank : ∀ character ∈ blanks, isBlank character = true) (tight : Tight text) :
    ofLine? (blanks ++ text) = some ((marker? text).getD (.command text)) := by
  rw [ofLine?, withoutComment_eq free, trim_append blank tight]
  obtain ⟨first, rest, rfl⟩ := List.exists_cons_of_ne_nil tight.nonempty
  rfl

theorem ofLine?_command {command : Command} (legible : command.Legible) :
    ofLine? command.text.toList = some (.command command.text.toList) := by
  have found : ofLine? ([] ++ command.text.toList) = _ :=
    ofLine?_tight legible.commentFree (by simp) legible.tight_text
  rwa [legible.noMarker] at found

theorem ofLine?_indented {command : Command} (legible : command.Legible) :
    ofLine? (Program.indented command).toList = some (.command command.text.toList) := by
  have indented : (Program.indented command).toList = [' ', ' '] ++ command.text.toList := by
    rw [Program.indented, String.toList_append]
    rfl
  have free : CommentFree ([' ', ' '] ++ command.text.toList) :=
    CommentFree.cons (by decide) (CommentFree.cons (by decide) legible.commentFree)
  rw [indented, ofLine?_tight free (by simp [isBlank_space]) legible.tight_text, legible.noMarker]
  rfl

theorem ofLine?_end (kind : Kind) :
    ofLine? (Program.marker kind "end").toList = some (.ending kind) := by
  cases kind <;> rfl

theorem toList_marker (kind : Kind) (name : String) :
    (Program.marker kind name).toList = kind.opener :: name.toList ++ [kind.closer] :=
  String.toList_ofList

theorem toList_header (kind : Kind) (definition : Definition) :
    (Program.header kind definition).toList =
      joined ((kind.opener :: definition.name.toList ++ [kind.closer]) ::
        definition.effects.map (·.text.toList)) := by
  rw [Program.header, String.toList_intercalate, List.map_cons, List.map_map, toList_marker, joined]
  rfl

theorem tight_marker (kind : Kind) (name : String) :
    Tight (kind.opener :: name.toList ++ [kind.closer]) := by
  refine ⟨by simp, ?_, ?_⟩
  · exact kind.isInk_opener
  · rw [List.getLast?_concat]
    exact kind.isInk_closer

theorem trim_spaced {pieces : List (List Char)} (tight : ∀ piece ∈ pieces, Tight piece) :
    trim (spaced pieces) = joined pieces := by
  cases pieces with
  | nil => rfl
  | cons first rest =>
    rw [spaced_cons]
    exact @trim_append [' '] _ (by simp [isBlank_space]) (tight_joined (tight first List.mem_cons_self)
      fun piece member => tight piece (List.mem_cons_of_mem _ member))

theorem ofName?_word {name : List Char} (isWord : IsWord name) (notEnd : name ≠ endWord)
    (kind : Kind) (rest : List Char) :
    ofName? kind name rest = some (.opening kind (String.ofList name) rest) := by
  rw [ofName?, (isWord_iff name).mpr isWord]
  simp [notEnd]

theorem marker?_header {kind : Kind} {name : String} (isName : IsName kind name)
    {pieces : List (List Char)} (tight : ∀ piece ∈ pieces, Tight piece) :
    marker? (joined ((kind.opener :: name.toList ++ [kind.closer]) :: pieces)) =
      some (.opening kind name (joined pieces)) := by
  rw [joined_cons, List.append_assoc, List.cons_append, List.singleton_append, marker?_cons,
    kind.ofOpener?_opener, Option.bind_some, bracketed?_append isName.notClosed, Option.bind_some,
    trim_word isName.isWord, trim_spaced tight, ofName?_word isName.isWord isName.notEnd,
    String.ofList_toList]

theorem commentFree_header {kind : Kind} {definition : Definition}
    (legible : definition.Legible kind) :
    CommentFree (Program.header kind definition).toList := by
  rw [toList_header]
  apply commentFree_joined
  intro piece member
  rcases List.mem_cons.mp member with rfl | member
  · exact CommentFree.cons kind.opener_ne_slash
      (legible.name.commentFree.append_cons kind.closer_ne_slash commentFree_nil)
  · obtain ⟨effect, effectMember, rfl⟩ := List.mem_map.mp member
    exact (legible.effects effect effectMember).commentFree_text

theorem ofLine?_header {kind : Kind} {definition : Definition}
    (legible : definition.Legible kind) :
    ofLine? (Program.header kind definition).toList =
      some (.opening kind definition.name (joined (definition.effects.map (·.text.toList)))) := by
  have tight : ∀ piece ∈ definition.effects.map (·.text.toList), Tight piece := by
    intro piece member
    obtain ⟨effect, -, rfl⟩ := List.mem_map.mp member
    exact effect.tight_text
  have found : ofLine? ([] ++ (Program.header kind definition).toList) = _ :=
    ofLine?_tight (commentFree_header legible) (by simp)
      (toList_header kind definition ▸ tight_joined (tight_marker kind _) tight)
  rw [toList_header] at found ⊢
  rwa [marker?_header legible.name tight] at found

end Row

end Sequencer
