import Sequencer.Proofs.Text.Words

/-! # Lines and comments

A row without two slashes side by side keeps all of its text, and rows without a line feed come back
from the text they are put together to.
-/

namespace Sequencer.Text

/-! ## Comments -/

def CommentFree (text : List Char) : Prop := ¬ ['/', '/'] <:+: text

theorem commentFree_nil : CommentFree [] := by
  intro slashes
  have length := slashes.length_le
  simp at length

theorem CommentFree.of_isInfix {part text : List Char} (free : CommentFree text)
    (inside : part <:+: text) : CommentFree part :=
  fun slashes => free (slashes.trans inside)

theorem CommentFree.of_cons {first : Char} {text : List Char} (free : CommentFree (first :: text)) :
    CommentFree text :=
  free.of_isInfix (List.suffix_cons first text).isInfix

theorem withoutComment_isPrefix (text : List Char) : withoutComment text <+: text := by
  induction text using withoutComment.induct with
  | case1 rest => exact List.nil_prefix
  | case2 first rest noComment inductionHypothesis =>
    rw [withoutComment]
    · exact List.cons_prefix_cons.mpr ⟨rfl, inductionHypothesis⟩
    · exact noComment
  | case3 => exact List.nil_prefix

theorem commentFree_withoutComment (text : List Char) : CommentFree (withoutComment text) := by
  induction text using withoutComment.induct with
  | case1 rest => exact commentFree_nil
  | case2 first rest noComment inductionHypothesis =>
    rw [withoutComment]
    · intro slashes
      rcases List.infix_cons_iff.mp slashes with start | inside
      · obtain ⟨rest', equal⟩ := start
        obtain ⟨rfl, rest_eq⟩ := List.cons.inj equal
        -- what is kept of the rest starts like the rest
        have second := withoutComment_isPrefix rest
        rw [← rest_eq] at second
        obtain ⟨tail, rest_eq⟩ := second
        exact noComment (rest' ++ tail) rfl rest_eq.symm
      · exact inductionHypothesis inside
    · exact noComment
  | case3 => exact commentFree_nil

theorem withoutComment_eq {text : List Char} (free : CommentFree text) :
    withoutComment text = text := by
  induction text using withoutComment.induct with
  | case1 rest => exact absurd (List.prefix_append ['/', '/'] rest).isInfix free
  | case2 first rest noComment inductionHypothesis =>
    rw [withoutComment]
    · rw [inductionHypothesis free.of_cons]
    · exact noComment
  | case3 => rfl

/-- Two slashes cannot meet over a character that is none. -/
theorem CommentFree.append_cons {left right : List Char} {middle : Char}
    (freeLeft : CommentFree left) (noSlash : middle ≠ '/') (freeRight : CommentFree right) :
    CommentFree (left ++ middle :: right) := by
  induction left with
  | nil =>
    intro slashes
    rcases List.infix_cons_iff.mp slashes with start | inside
    · exact noSlash (List.cons_prefix_cons.mp start).1.symm
    · exact freeRight inside
  | cons first left inductionHypothesis =>
    intro slashes
    rcases List.infix_cons_iff.mp slashes with start | inside
    · obtain ⟨rfl, second⟩ := List.cons_prefix_cons.mp start
      -- the second slash would be the character in the middle, or in the left part like the first
      cases left with
      | nil => exact noSlash (List.cons_prefix_cons.mp second).1.symm
      | cons next left =>
        obtain ⟨rfl, -⟩ := List.cons_prefix_cons.mp second
        exact freeLeft (List.prefix_append ['/', '/'] left).isInfix
    · exact inductionHypothesis freeLeft.of_cons inside

theorem CommentFree.cons {first : Char} {text : List Char} (noSlash : first ≠ '/')
    (free : CommentFree text) : CommentFree (first :: text) :=
  commentFree_nil.append_cons noSlash free

/-- Every piece starts with a character that is no slash. -/
theorem CommentFree.append_flatMap {left : List Char} {middle : Char} (freeLeft : CommentFree left)
    (noSlash : middle ≠ '/') {pieces : List (List Char)}
    (freePieces : ∀ piece ∈ pieces, CommentFree piece) :
    CommentFree (left ++ pieces.flatMap (middle :: ·)) := by
  induction pieces generalizing left with
  | nil => simpa using freeLeft
  | cons first rest inductionHypothesis =>
    rw [List.flatMap_cons, List.cons_append]
    refine freeLeft.append_cons noSlash ?_
    exact inductionHypothesis (freePieces first List.mem_cons_self)
      fun piece member => freePieces piece (List.mem_cons_of_mem _ member)

theorem commentFree_joined {row : List (List Char)} (free : ∀ word ∈ row, CommentFree word) :
    CommentFree (joined row) := by
  cases row with
  | nil => exact commentFree_nil
  | cons first rest =>
    rw [joined_cons, spaced]
    exact (free first List.mem_cons_self).append_flatMap (by decide)
      fun word member => free word (List.mem_cons_of_mem _ member)

theorem commentFree_of_forall {text : List Char} (noSlash : ∀ character ∈ text, character ≠ '/') :
    CommentFree text :=
  fun slashes => noSlash '/' (slashes.subset List.mem_cons_self) rfl

/-! ## Lines -/

theorem lines_nil : lines [] = [] := by
  rw [lines]

theorem lines_cons (first : Char) (rest : List Char) :
    lines (first :: rest) = (first :: rest).takeWhile (!isLineEnd ·) ::
      lines (((first :: rest).dropWhile (!isLineEnd ·)).drop 1) := by
  rw [lines]

theorem lines_append {row : List Char} (noEnd : ∀ character ∈ row, isLineEnd character = false)
    (rest : List Char) : lines (row ++ '\n' :: rest) = row :: lines rest := by
  have inside : ∀ character ∈ row, (!isLineEnd character) = true := by simpa using noEnd
  obtain ⟨first, text, text_eq⟩ := List.exists_cons_of_ne_nil
    (List.append_ne_nil_of_right_ne_nil row (List.cons_ne_nil '\n' rest))
  rw [text_eq, lines_cons, ← text_eq, List.takeWhile_append_of_pos inside,
    List.dropWhile_append_of_pos inside]
  simp [isLineEnd]

theorem lines_unlines {rows : List String}
    (noEnd : ∀ row ∈ rows, ∀ character ∈ row.toList, isLineEnd character = false) :
    lines (unlines rows).toList = rows.map String.toList := by
  rw [unlines, String.toList_join]
  induction rows with
  | nil => exact lines_nil
  | cons first rest inductionHypothesis =>
    have tail := inductionHypothesis fun row member => noEnd row (List.mem_cons_of_mem _ member)
    rw [List.map_cons, List.flatMap_cons, String.toList_append, List.append_assoc, List.map_cons,
      ← tail]
    exact lines_append (noEnd first List.mem_cons_self) _

end Sequencer.Text
