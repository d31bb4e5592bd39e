import Mathlib.Data.List.Infix
import Mathlib.Data.List.TakeWhile
import Sequencer.Text.Blank
import Sequencer.Text.Line

/-! # Words and the blanks between them

A text is read by its words: which blanks stand between them, and how many, makes no difference.
`words_joined` says that words written one space apart are read back, and `words_takeWhile` that the
words in front of a mark depend on the words alone.
-/

namespace Sequencer.Text

/-- A nonempty run of characters that are not blank. -/
def IsWord (word : List Char) : Prop :=
  word ≠ [] ∧ ∀ character ∈ word, isInk character = true

/-- A text that continues no word before it. -/
def Breaks (text : List Char) : Prop := text.head?.all isBlank = true

theorem isInk_iff {character : Char} : isInk character = true ↔ isBlank character = false := by
  simp [isInk]

theorem breaks_nil : Breaks [] := rfl

theorem breaks_cons {blank : Char} {text : List Char} (isBlank : isBlank blank = true) :
    Breaks (blank :: text) := isBlank

theorem Breaks.append {left right : List Char} (breaksLeft : Breaks left)
    (breaksRight : Breaks right) : Breaks (left ++ right) := by
  cases left with
  | nil => exact breaksRight
  | cons first left => exact breaksLeft

theorem breaks_dropWhile (text : List Char) : Breaks (text.dropWhile isInk) := by
  have stops := List.head?_dropWhile_not isInk text
  unfold Breaks
  cases found : (text.dropWhile isInk).head? with
  | none => rfl
  | some stop => simpa [found, isInk] using stops

theorem IsWord.isInk_head {first : Char} {rest : List Char} (word : IsWord (first :: rest)) :
    isInk first = true :=
  word.2 first List.mem_cons_self

/-! ## Words from the front -/

theorem words_eq (text : List Char) :
    words text =
      match text.dropWhile isBlank with
      | [] => []
      | character :: rest =>
        (character :: rest.takeWhile isInk) :: words (rest.dropWhile isInk) := by
  rw [words]
  split
  · next start => rw [start]
  · next start => rw [start]

theorem words_nil : words [] = [] := words_eq []

theorem words_blank {blank : Char} (text : List Char) (isBlank : isBlank blank = true) :
    words (blank :: text) = words text := by
  rw [words_eq, words_eq text, List.dropWhile_cons_of_pos isBlank]

theorem takeWhile_isInk {word text : List Char} (isWord : ∀ character ∈ word, isInk character = true)
    (breaks : Breaks text) : (word ++ text).takeWhile isInk = word := by
  rw [List.takeWhile_append_of_pos isWord]
  cases text with
  | nil => simp
  | cons first text =>
    have blank : isBlank first = true := breaks
    simp [isInk, blank]

theorem dropWhile_isInk {word text : List Char} (isWord : ∀ character ∈ word, isInk character = true)
    (breaks : Breaks text) : (word ++ text).dropWhile isInk = text := by
  rw [List.dropWhile_append_of_pos isWord]
  cases text with
  | nil => simp
  | cons first text =>
    have blank : isBlank first = true := breaks
    simp [isInk, blank]

theorem words_word {word text : List Char} (isWord : IsWord word) (breaks : Breaks text) :
    words (word ++ text) = word :: words text := by
  obtain ⟨first, rest, rfl⟩ := List.exists_cons_of_ne_nil isWord.1
  have ink := isInk_iff.mp isWord.isInk_head
  have restInk : ∀ character ∈ rest, isInk character = true :=
    fun character member => isWord.2 character (List.mem_cons_of_mem _ member)
  have start : (first :: rest ++ text).dropWhile isBlank = first :: (rest ++ text) := by
    simp [ink]
  rw [words_eq, start]
  dsimp only
  rw [takeWhile_isInk restInk breaks, dropWhile_isInk restInk breaks]

/-- Every text is empty, or starts with a blank, or starts with a whole word. -/
theorem induction_on_words {motive : List Char → Prop} (nil : motive [])
    (blank : ∀ first text, isBlank first = true → motive text → motive (first :: text))
    (word : ∀ first text, IsWord first → Breaks text → motive text → motive (first ++ text)) :
    ∀ text, motive text := by
  intro text
  induction length : text.length using Nat.strong_induction_on generalizing text with
  | _ size inductionHypothesis =>
    cases text with
    | nil => exact nil
    | cons first text =>
      by_cases isBlank : isBlank first = true
      · exact blank first text isBlank (inductionHypothesis text.length (by simp [← length]) text rfl)
      -- the word goes on to the next blank, and what follows it is shorter
      · have ink : isInk first = true := by simpa [isInk] using isBlank
        have front : (first :: text).takeWhile isInk = first :: text.takeWhile isInk := by
          simp [ink]
        have shorter := length_dropWhile_le isInk text
        have rest : (first :: text).dropWhile isInk = text.dropWhile isInk := by simp [ink]
        rw [← List.takeWhile_append_dropWhile (p := isInk) (l := first :: text), rest]
        refine word _ _ ⟨by simp [front], fun character member => List.mem_takeWhile_imp member⟩
          (breaks_dropWhile text) (inductionHypothesis _ ?_ _ rfl)
        rw [← length, List.length_cons]
        omega

/-! ## What words are made of -/

theorem isWord_of_mem_words {text word : List Char} (member : word ∈ words text) : IsWord word := by
  induction text using induction_on_words with
  | nil => simp [words_nil] at member
  | blank first text isBlank inductionHypothesis =>
    rw [words_blank text isBlank] at member
    exact inductionHypothesis member
  | word first text isWord breaks inductionHypothesis =>
    rw [words_word isWord breaks] at member
    rcases List.mem_cons.mp member with rfl | member
    · exact isWord
    · exact inductionHypothesis member

theorem isInfix_of_mem_words {text word : List Char} (member : word ∈ words text) :
    word <:+: text := by
  induction text using induction_on_words with
  | nil => simp [words_nil] at member
  | blank first text isBlank inductionHypothesis =>
    rw [words_blank text isBlank] at member
    exact List.infix_cons (inductionHypothesis member)
  | word first text isWord breaks inductionHypothesis =>
    rw [words_word isWord breaks] at member
    rcases List.mem_cons.mp member with rfl | member
    · exact (List.prefix_append _ _).isInfix
    · exact (inductionHypothesis member).trans (List.suffix_append _ _).isInfix

theorem words_append (left : List Char) {right : List Char} (breaks : Breaks right) :
    words (left ++ right) = words left ++ words right := by
  induction left using induction_on_words with
  | nil => simp [words_nil]
  | blank first text isBlank inductionHypothesis =>
    rw [List.cons_append, words_blank _ isBlank, words_blank _ isBlank, inductionHypothesis]
  | word first text isWord breaksText inductionHypothesis =>
    rw [List.append_assoc, words_word isWord (breaksText.append breaks),
      words_word isWord breaksText, inductionHypothesis, List.cons_append]

theorem words_of_blank {text : List Char} (blank : ∀ character ∈ text, isBlank character = true) :
    words text = [] := by
  induction text with
  | nil => exact words_nil
  | cons first text inductionHypothesis =>
    rw [words_blank _ (blank first List.mem_cons_self)]
    exact inductionHypothesis fun character member => blank character (List.mem_cons_of_mem _ member)

theorem IsWord.words_eq {word : List Char} (isWord : IsWord word) : words word = [word] := by
  have alone := words_word isWord breaks_nil
  rwa [List.append_nil, words_nil] at alone

/-- A character that is not blank stands in some word. -/
theorem mem_iff_mem_words {text : List Char} {mark : Char} (ink : isInk mark = true) :
    mark ∈ text ↔ ∃ word ∈ words text, mark ∈ word := by
  induction text using induction_on_words with
  | nil => simp [words_nil]
  | blank first text blank inductionHypothesis =>
    have other : mark ≠ first := by
      rintro rfl
      simp [isInk, blank] at ink
    rw [words_blank _ blank, List.mem_cons, inductionHypothesis]
    simp [other]
  | word first text isWord breaks inductionHypothesis =>
    rw [words_word isWord breaks, List.mem_append, inductionHypothesis]
    simp

/-! ## Words one space apart -/

def joined (row : List (List Char)) : List Char := [' '].intercalate row

/-- Every piece with a space in front of it. -/
def spaced (row : List (List Char)) : List Char := row.flatMap (' ' :: ·)

theorem intercalate_cons {α : Type} (separator first : List α) (rest : List (List α)) :
    separator.intercalate (first :: rest) = first ++ rest.flatMap (separator ++ ·) := by
  induction rest generalizing first with
  | nil => simp
  | cons second rest inductionHypothesis =>
    rw [List.intercalate_cons_cons, inductionHypothesis, List.flatMap_cons, ← List.append_assoc,
      List.append_assoc separator]
    simp

theorem joined_nil : joined [] = [] := List.intercalate_nil

theorem joined_cons (first : List Char) (rest : List (List Char)) :
    joined (first :: rest) = first ++ spaced rest :=
  intercalate_cons _ _ _

theorem spaced_cons (first : List Char) (rest : List (List Char)) :
    spaced (first :: rest) = ' ' :: joined (first :: rest) := by
  rw [joined_cons]
  rfl

theorem toList_joinWords (row : List String) :
    (joinWords row).toList = joined (row.map String.toList) := by
  rw [joinWords, String.toList_intercalate]
  rfl

theorem isBlank_space : isBlank ' ' = true := by decide

theorem breaks_spaced (row : List (List Char)) : Breaks (spaced row) := by
  cases row with
  | nil => exact breaks_nil
  | cons first rest => exact breaks_cons isBlank_space

theorem words_spaced {row : List (List Char)} (areWords : ∀ word ∈ row, IsWord word) :
    words (spaced row) = row := by
  induction row with
  | nil => exact words_nil
  | cons first rest inductionHypothesis =>
    rw [spaced_cons, joined_cons, words_blank _ isBlank_space,
      words_word (areWords first List.mem_cons_self) (breaks_spaced rest),
      inductionHypothesis fun word member => areWords word (List.mem_cons_of_mem _ member)]

theorem words_joined {row : List (List Char)} (areWords : ∀ word ∈ row, IsWord word) :
    words (joined row) = row := by
  cases row with
  | nil => exact words_nil
  | cons first rest =>
    rw [← words_blank (joined (first :: rest)) isBlank_space, ← spaced_cons, words_spaced areWords]

/-! ## Words in front of a mark -/

/-- The words in front of the first mark, the one that holds it being cut off there. -/
def wordsBefore (mark : Char) : List (List Char) → List (List Char)
  | [] => []
  | word :: rest =>
    if mark ∈ word then words (word.takeWhile (· != mark)) else word :: wordsBefore mark rest

theorem takeWhile_append_of_mem {mark : Char} {left : List Char} (member : mark ∈ left)
    (right : List Char) : (left ++ right).takeWhile (· != mark) = left.takeWhile (· != mark) := by
  induction left with
  | nil => cases member
  | cons first left inductionHypothesis =>
    by_cases same : first = mark
    · simp [same]
    · have later : mark ∈ left := (List.mem_cons.mp member).resolve_left (Ne.symm same)
      simp [same, inductionHypothesis later]

theorem takeWhile_append_of_not_mem {mark : Char} {left : List Char} (absent : mark ∉ left)
    (right : List Char) :
    (left ++ right).takeWhile (· != mark) = left ++ right.takeWhile (· != mark) := by
  apply List.takeWhile_append_of_pos
  intro character member
  simp only [bne_iff_ne, ne_eq]
  rintro rfl
  exact absent member

theorem Breaks.takeWhile {text : List Char} (breaks : Breaks text) (mark : Char) :
    Breaks (text.takeWhile (· != mark)) := by
  cases text with
  | nil => exact breaks_nil
  | cons first text =>
    rw [List.takeWhile_cons]
    split
    · exact breaks
    · exact breaks_nil

theorem words_takeWhile {mark : Char} (ink : isInk mark = true) (text : List Char) :
    words (text.takeWhile (· != mark)) = wordsBefore mark (words text) := by
  induction text using induction_on_words with
  | nil => simp [words_nil, wordsBefore]
  | blank first text blank inductionHypothesis =>
    have other : first ≠ mark := by
      rintro rfl
      simp [isInk, blank] at ink
    rw [words_blank _ blank, ← inductionHypothesis,
      List.takeWhile_cons_of_pos (by simpa using other), words_blank _ blank]
  | word first text isWord breaks inductionHypothesis =>
    rw [words_word isWord breaks, wordsBefore]
    split
    · next member => rw [takeWhile_append_of_mem member]
    · next absent =>
      rw [takeWhile_append_of_not_mem absent, words_word isWord (breaks.takeWhile mark),
        inductionHypothesis]

/-- What follows the first character of a word has the words that are left of it. -/
theorem words_rest {first : Char} (ink : isInk first = true) {left right : List Char}
    (same : words (first :: left) = words (first :: right)) : words left = words right := by
  -- a text is what continues the word and what follows it
  have split : ∀ text : List Char, words text =
      words (text.takeWhile isInk) ++ words (text.dropWhile isInk) := by
    intro text
    rw [← words_append _ (breaks_dropWhile text), List.takeWhile_append_dropWhile]
  rw [words_eq, words_eq (first :: right)] at same
  have dark : isBlank first = false := isInk_iff.mp ink
  simp only [List.dropWhile_cons, dark, Bool.false_eq_true, if_false, List.cons.injEq,
    true_and] at same
  rw [split left, split right, same.1, same.2]

/-! ## Trimming -/

theorem trimStart_of_ink {first : Char} (rest : List Char) (ink : isInk first = true) :
    trimStart (first :: rest) = first :: rest := by
  simp [trimStart, isInk_iff.mp ink]

theorem trimStart_blank {first : Char} (rest : List Char) (blank : isBlank first = true) :
    trimStart (first :: rest) = trimStart rest := by
  simp [trimStart, blank]

theorem trimEnd_append_blank (left : List Char) {right : List Char}
    (blank : ∀ character ∈ right, isBlank character = true) :
    trimEnd (left ++ right) = trimEnd left := by
  rw [trimEnd, List.reverse_append, List.dropWhile_append_of_pos (by simpa using blank)]
  rfl

theorem trimEnd_append_ink (left : List Char) {last : Char} (ink : isInk last = true) :
    trimEnd (left ++ [last]) = left ++ [last] := by
  simp [trimEnd, isInk_iff.mp ink]

theorem trimEnd_append (text : List Char) :
    ∃ blanks, text = trimEnd text ++ blanks ∧ ∀ character ∈ blanks, isBlank character = true := by
  refine ⟨(text.reverse.takeWhile isBlank).reverse, ?_, ?_⟩
  · rw [trimEnd, ← List.reverse_append, List.takeWhile_append_dropWhile, List.reverse_reverse]
  · intro character member
    exact List.mem_takeWhile_imp (List.mem_reverse.mp member)

theorem trimEnd_word {word : List Char} (isWord : IsWord word) : trimEnd word = word := by
  rcases List.eq_nil_or_concat word with rfl | ⟨front, last, rfl⟩
  · exact absurd rfl isWord.1
  · rw [List.concat_eq_append]
    exact trimEnd_append_ink front (isWord.2 last (by simp))

theorem trim_isInfix (text : List Char) : trim text <:+: text := by
  obtain ⟨blanks, text_eq, _⟩ := trimEnd_append (trimStart text)
  have front : trim text <+: trimStart text := ⟨blanks, text_eq.symm⟩
  exact front.isInfix.trans (List.dropWhile_suffix _).isInfix

theorem words_trimStart (text : List Char) : words (trimStart text) = words text := by
  induction text with
  | nil => rfl
  | cons first text inductionHypothesis =>
    by_cases blank : isBlank first = true
    · rw [trimStart_blank _ blank, words_blank _ blank, inductionHypothesis]
    · rw [trimStart_of_ink _ (by simpa [isInk] using blank)]

theorem words_trim (text : List Char) : words (trim text) = words text := by
  -- nothing but blanks is cut off at the end, and they start no word
  obtain ⟨blanks, text_eq, blank⟩ := trimEnd_append (trimStart text)
  have breaks : Breaks blanks := by
    cases blanks with
    | nil => exact breaks_nil
    | cons first blanks => exact breaks_cons (blank first List.mem_cons_self)
  rw [← words_trimStart text, text_eq, words_append _ breaks, words_of_blank blank,
    List.append_nil]
  rfl

theorem head_trimStart (text : List Char) : (trimStart text).head?.all isInk = true := by
  have stops := List.head?_dropWhile_not isBlank text
  rw [trimStart]
  cases found : (text.dropWhile isBlank).head? with
  | none => rfl
  | some first => simpa [found, isInk] using stops

theorem isInk_of_trim {text rest : List Char} {first : Char} (trimmed : trim text = first :: rest) :
    isInk first = true := by
  obtain ⟨blanks, text_eq, _⟩ := trimEnd_append (trimStart text)
  change trimEnd (trimStart text) = _ at trimmed
  have head := head_trimStart text
  rwa [text_eq, trimmed] at head

theorem head_trim (text : List Char) : (trim text).head?.all isInk = true := by
  cases trimmed : trim text with
  | nil => rfl
  | cons first rest => exact isInk_of_trim trimmed

/-- A text with no blank at either end. -/
structure Tight (text : List Char) : Prop where
  nonempty : text ≠ []
  start : text.head?.all isInk = true
  finish : text.getLast?.all isInk = true

theorem IsWord.tight {word : List Char} (isWord : IsWord word) : Tight word where
  nonempty := isWord.1
  start := by
    obtain ⟨first, rest, rfl⟩ := List.exists_cons_of_ne_nil isWord.1
    exact isWord.isInk_head
  finish := by
    rw [List.getLast?_eq_some_getLast isWord.1]
    exact isWord.2 _ (List.getLast_mem isWord.1)

theorem Tight.append {left right : List Char} (tightLeft : Tight left) (tightRight : Tight right)
    (middle : List Char) : Tight (left ++ (middle ++ right)) where
  nonempty := List.append_ne_nil_of_left_ne_nil tightLeft.nonempty _
  start := by
    rw [List.head?_append_of_ne_nil _ tightLeft.nonempty]
    exact tightLeft.start
  finish := by
    rw [← List.append_assoc, List.getLast?_append_of_ne_nil _ tightRight.nonempty]
    exact tightRight.finish

theorem tight_joined {first : List Char} {rest : List (List Char)} (tightFirst : Tight first)
    (tightRest : ∀ piece ∈ rest, Tight piece) : Tight (joined (first :: rest)) := by
  induction rest generalizing first with
  | nil =>
    rw [joined_cons]
    simpa [spaced] using tightFirst
  | cons second rest inductionHypothesis =>
    rw [joined_cons, spaced_cons]
    exact tightFirst.append (inductionHypothesis (tightRest second List.mem_cons_self)
      fun piece member => tightRest piece (List.mem_cons_of_mem _ member)) [' ']

/-- Blanks in front are all there is to trim. -/
theorem trim_append {blanks text : List Char}
    (blank : ∀ character ∈ blanks, isBlank character = true) (tight : Tight text) :
    trim (blanks ++ text) = text := by
  obtain ⟨first, rest, rfl⟩ := List.exists_cons_of_ne_nil tight.nonempty
  have started : trimStart (blanks ++ first :: rest) = first :: rest := by
    rw [trimStart, List.dropWhile_append_of_pos blank]
    exact trimStart_of_ink rest tight.start
  have finish := tight.finish
  rw [trim, started]
  rcases List.eq_nil_or_concat (first :: rest) with empty | ⟨front, last, whole⟩
  · cases empty
  · rw [whole, List.concat_eq_append] at finish ⊢
    exact trimEnd_append_ink front (by simpa using finish)

theorem trim_eq_of_words {text word : List Char} (alone : words text = [word]) :
    trim text = word := by
  induction text using induction_on_words with
  | nil => simp [words_nil] at alone
  | blank first text blank inductionHypothesis =>
    rw [words_blank _ blank] at alone
    rw [trim, trimStart_blank _ blank]
    exact inductionHypothesis alone
  | word first text isWord breaks _ =>
    rw [words_word isWord breaks, List.cons.injEq] at alone
    obtain ⟨rfl, none⟩ := alone
    -- any other character after the word would stand in a second word
    have blank : ∀ character ∈ text, isBlank character = true := by
      intro character member
      by_contra ink
      obtain ⟨word, wordMember, _⟩ :=
        (mem_iff_mem_words (isInk_iff.mpr (by simpa using ink))).mp member
      rw [none] at wordMember
      cases wordMember
    obtain ⟨head, rest, rfl⟩ := List.exists_cons_of_ne_nil isWord.1
    rw [trim, List.cons_append, trimStart_of_ink _ isWord.isInk_head, ← List.cons_append,
      trimEnd_append_blank _ blank, trimEnd_word isWord]

theorem trim_word {word : List Char} (isWord : IsWord word) : trim word = word :=
  trim_eq_of_words isWord.words_eq

end Sequencer.Text
