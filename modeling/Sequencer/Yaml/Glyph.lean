import Sequencer.Yaml.Character

/-!
# Characters with their places

The structure of a text depends on the columns in which its lines start, so every character carries
its line and its column.
-/

namespace Sequencer.Yaml

structure Glyph where
  character : Char
  line : Nat
  column : Nat
  deriving DecidableEq, Repr

namespace Glyph

def isGap (glyph : Glyph) : Bool := Yaml.isGap glyph.character

def isBreak (glyph : Glyph) : Bool := Yaml.isBreak glyph.character

def isSpacing (glyph : Glyph) : Bool := Yaml.isSpacing glyph.character

def placeFrom (line column : Nat) : List Char → List Glyph
  | [] => []
  | character :: rest =>
    { character, line, column } ::
      if Yaml.isBreak character then placeFrom (line + 1) 0 rest
      else placeFrom line (column + 1) rest

/-- Gives the characters of a text their places. -/
def place (text : List Char) : List Glyph := placeFrom 0 0 text

end Glyph

/-- The characters without their places. -/
def charactersOf (glyphs : List Glyph) : List Char := glyphs.map Glyph.character

/-- Whether a blank, a break or the end of the text is next. -/
def endsHere (glyphs : List Glyph) : Bool := glyphs.head?.all Glyph.isSpacing

/-- Whether the next character satisfies a test. -/
def nextIs (test : Char → Bool) (glyphs : List Glyph) : Bool :=
  glyphs.head?.any fun glyph => test glyph.character

/-- Whether a mark of three characters stands alone at the start of a line. -/
def hasMark (mark : String) (glyphs : List Glyph) : Bool :=
  glyphs.head?.any (fun glyph => glyph.column == 0) &&
    charactersOf (glyphs.take 3) == mark.toList && endsHere (glyphs.drop 3)

/-- Whether a mark between documents is next, which ends every scalar. -/
def startsDocumentMark (glyphs : List Glyph) : Bool := hasMark "---" glyphs || hasMark "..." glyphs

/-- The line below, if nothing but blanks and a comment ends this one. -/
def nextLine? (glyphs : List Glyph) : Option (List Glyph) :=
  match glyphs.dropWhile Glyph.isGap with
  | [] => some []
  | next :: rest =>
    if next.isBreak then some rest
    else if next.character == '#' then some ((rest.dropWhile fun glyph => !glyph.isBreak).drop 1)
    else none

end Sequencer.Yaml
