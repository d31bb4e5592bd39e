import Sequencer.Text.Blank

/-!
# Lines

A text is a sequence of lines, each ended by a line feed or by the end of the text. The end of the
text ends no empty line. A comment runs from two slashes to the end of its line.
-/

namespace Sequencer.Text

def isLineEnd (character : Char) : Bool := character == '\n'

def lines (text : List Char) : List (List Char) :=
  match text with
  | [] => []
  | character :: rest =>
    (character :: rest).takeWhile (!isLineEnd ·) ::
      lines (((character :: rest).dropWhile (!isLineEnd ·)).drop 1)
termination_by text.length
decreasing_by
  have remainder := length_dropWhile_le (!isLineEnd ·) (character :: rest)
  simp only [List.length_drop, List.length_cons] at *
  omega

/-- Pairs each line with its number, counted from one. -/
def numbered (rows : List (List Char)) : List (Nat × List Char) :=
  rows.mapIdx fun index row => (index + 1, row)

/-- The part of a line before its comment. -/
def withoutComment : List Char → List Char
  | '/' :: '/' :: _ => []
  | character :: rest => character :: withoutComment rest
  | [] => []

example : withoutComment "play a // b".toList = "play a ".toList := by decide

/-- Words joined by one space each. -/
def joinWords (items : List String) : String := " ".intercalate items

/-- Lines, each with its end. -/
def unlines (rows : List String) : String := String.join (rows.map (· ++ "\n"))

end Sequencer.Text
