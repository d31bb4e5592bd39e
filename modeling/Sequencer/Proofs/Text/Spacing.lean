import Sequencer.Proofs.Text.Words

/-! # Texts that differ in their spacing

Two texts with the same words can still differ in the blanks between them. Cut at the first occurrence
of a mark they have the same words in front of it, up to it and behind it.
-/

namespace Sequencer.Text

/-! ## Words from a mark on -/

/-- The words up to the first mark, the one that holds it ending there. -/
def wordsThrough (mark : Char) : List (List Char) → List (List Char)
  | [] => []
  | word :: rest =>
    if mark ∈ word then [word.takeWhile (· != mark) ++ [mark]] else word :: wordsThrough mark rest

/-- The words from the first mark on, the one that holds it starting there. -/
def wordsFrom (mark : Char) : List (List Char) → List (List Char)
  | [] => []
  | word :: rest =>
    if mark ∈ word then word.dropWhile (· != mark) :: rest else wordsFrom mark rest

theorem IsWord.takeThrough {word : List Char} (isWord : IsWord word) {mark : Char}
    (ink : isInk mark = true) : IsWord (word.takeWhile (· != mark) ++ [mark]) := by
  refine ⟨by simp, fun character member => ?_⟩
  rcases List.mem_append.mp member with inside | last
  · exact isWord.2 character ((List.takeWhile_prefix _).subset inside)
  · rwa [List.mem_singleton.mp last]

theorem IsWord.dropWhile {word : List Char} (isWord : IsWord word) {mark : Char}
    (member : mark ∈ word) : IsWord (word.dropWhile (· != mark)) := by
  refine ⟨fun empty => ?_, fun character inside => ?_⟩
  · simpa using List.dropWhile_eq_nil_iff.mp empty mark member
  · exact isWord.2 character ((List.dropWhile_suffix _).subset inside)

theorem words_takeThrough {mark : Char} (ink : isInk mark = true) {text : List Char}
    (member : mark ∈ text) :
    words (text.takeWhile (· != mark) ++ [mark]) = wordsThrough mark (words text) := by
  induction text using induction_on_words with
  | nil => cases member
  | blank first text blank inductionHypothesis =>
    have other : mark ≠ first := by
      rintro rfl
      simp [isInk, blank] at ink
    have later := (List.mem_cons.mp member).resolve_left other
    rw [List.takeWhile_cons_of_pos (by simpa using other.symm), List.cons_append,
      words_blank _ blank, words_blank _ blank, inductionHypothesis later]
  | word first text isWord breaks inductionHypothesis =>
    rw [words_word isWord breaks, wordsThrough]
    split
    · next inside => rw [takeWhile_append_of_mem inside, (isWord.takeThrough ink).words_eq]
    · next outside =>
      have later := (List.mem_append.mp member).resolve_left outside
      -- what follows the word starts with a blank, and goes on to the mark
      have breaksOff : Breaks (text.takeWhile (· != mark) ++ [mark]) := by
        cases text with
        | nil => cases later
        | cons blank text =>
          have other : blank ≠ mark := by
            rintro rfl
            simp [isInk, show isBlank blank = true from breaks] at ink
          rw [List.takeWhile_cons_of_pos (by simpa using other)]
          exact breaks_cons breaks
      rw [takeWhile_append_of_not_mem outside, List.append_assoc, words_word isWord breaksOff,
        inductionHypothesis later]

theorem words_dropWhile {mark : Char} (ink : isInk mark = true) (text : List Char) :
    words (text.dropWhile (· != mark)) = wordsFrom mark (words text) := by
  induction text using induction_on_words with
  | nil => simp [words_nil, wordsFrom]
  | blank first text blank inductionHypothesis =>
    have other : first ≠ mark := by
      rintro rfl
      simp [isInk, blank] at ink
    rw [words_blank _ blank, ← inductionHypothesis,
      List.dropWhile_cons_of_pos (by simpa using other)]
  | word first text isWord breaks inductionHypothesis =>
    rw [words_word isWord breaks, wordsFrom]
    split
    · next member =>
      have stays := isWord.dropWhile member
      rw [List.dropWhile_append, if_neg (by simpa using stays.1), words_word stays breaks]
    · next absent =>
      have passes : ∀ character ∈ first, (character != mark) = true := by
        intro character member
        simp only [bne_iff_ne, ne_eq]
        rintro rfl
        exact absent member
      rw [List.dropWhile_append_of_pos passes, inductionHypothesis]

/-! ## Texts with the same words -/

/-- A text with the words of one that has a mark can be cut at its first mark as well. -/
theorem exists_split {mark : Char} (ink : isInk mark = true) {front behind text : List Char}
    (same : words (front ++ mark :: behind) = words text) :
    ∃ front' behind', text = front' ++ mark :: behind' ∧ mark ∉ front' := by
  apply List.eq_append_cons_of_mem
  rw [mem_iff_mem_words ink, ← same, ← mem_iff_mem_words ink]
  simp

section Split

variable {mark : Char} {front front' behind behind' : List Char}

theorem takeWhile_of_not_mem (absent : mark ∉ front) :
    (front ++ mark :: behind).takeWhile (· != mark) = front := by
  simp [takeWhile_append_of_not_mem absent]

theorem dropWhile_of_not_mem (absent : mark ∉ front) :
    (front ++ mark :: behind).dropWhile (· != mark) = mark :: behind := by
  have whole := List.takeWhile_append_dropWhile (p := (· != mark)) (l := front ++ mark :: behind)
  rw [takeWhile_of_not_mem absent] at whole
  exact List.append_cancel_left whole

variable (ink : isInk mark = true) (absent : mark ∉ front) (absent' : mark ∉ front')
  (same : words (front ++ mark :: behind) = words (front' ++ mark :: behind'))

include ink absent absent' same

theorem words_front_congr : words front = words front' := by
  have before := words_takeWhile ink (front ++ mark :: behind)
  rwa [same, ← words_takeWhile ink, takeWhile_of_not_mem absent,
    takeWhile_of_not_mem absent'] at before

theorem words_through_congr : words (front ++ [mark]) = words (front' ++ [mark]) := by
  have marked : mark ∈ front ++ mark :: behind := by simp
  have through := words_takeThrough ink marked
  rwa [same, ← words_takeThrough ink (by simp), takeWhile_of_not_mem absent,
    takeWhile_of_not_mem absent'] at through

theorem words_behind_congr : words behind = words behind' := by
  have after := words_dropWhile ink (front ++ mark :: behind)
  rw [same, ← words_dropWhile ink, dropWhile_of_not_mem absent,
    dropWhile_of_not_mem absent'] at after
  exact words_rest ink after

end Split

/-- Texts with the same words, and no blanks in front, are empty or start with the same character. -/
theorem cases_of_words_eq {left right : List Char} (startLeft : left.head?.all isInk = true)
    (startRight : right.head?.all isInk = true) (same : words left = words right) :
    (left = [] ∧ right = []) ∨ ∃ first rest rest', left = first :: rest ∧ right = first :: rest' ∧
      isInk first = true ∧ words rest = words rest' := by
  have front : ∀ {first : Char} (rest : List Char), isInk first = true →
      words (first :: rest) = (first :: rest.takeWhile isInk) :: words (rest.dropWhile isInk) := by
    intro first rest ink
    rw [words_eq, List.dropWhile_cons_of_neg (by simp [isInk_iff.mp ink])]
  cases left with
  | nil =>
    cases right with
    | nil => exact .inl ⟨rfl, rfl⟩
    | cons first rest => simp [words_nil, front rest startRight] at same
  | cons first rest =>
    cases right with
    | nil => simp [words_nil, front rest startLeft] at same
    | cons first' rest' =>
      obtain rfl : first = first' := by
        rw [front rest startLeft, front rest' startRight] at same
        exact (List.cons.inj (List.cons.inj same).1).1
      exact .inr ⟨first, rest, rest', rfl, rfl, startLeft, words_rest startLeft same⟩

end Sequencer.Text
