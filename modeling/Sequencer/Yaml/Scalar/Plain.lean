import Sequencer.Text.Blank
import Sequencer.Yaml.Glyph

/-!
# Plain scalars

A plain scalar is a row of words. It goes on over line breaks as long as the lines are indented, and
it ends at a colon before a blank, at a number sign behind one, and at the punctuation of a flow
collection that it stands in.
-/

namespace Sequencer.Yaml

/-- What a reader of plain scalars comes back with. -/
structure PlainText where
  text : List Char
  /-- Whether a line break follows the last word. -/
  broken : Bool
  rest : List Glyph

/-- Whether a colon before punctuation is next, which is neither text nor the end of a key. -/
def startsClash : List Glyph → Bool
  | colon :: next :: _ =>
    colon.character == ':' && (next.character == '?' || isFlowIndicator next.character)
  | _ => false

/-- Whether no word goes on with the next character. -/
def endsWord (inFlow : Bool) : List Glyph → Bool
  | [] => true
  | next :: rest =>
    next.isSpacing || (next.character == ':' && endsHere rest) ||
      (inFlow && (isFlowIndicator next.character || startsClash (next :: rest)))

/-- How many characters the word has that is next. -/
def wordLength (inFlow : Bool) : List Glyph → Nat
  | [] => 0
  | next :: rest => if endsWord inFlow (next :: rest) then 0 else wordLength inFlow rest + 1

/-- Whether a tab stands where only spaces indent: left of the margin on a line of its own. -/
def hasLooseTab (margin : Nat) (run : List Glyph) : Bool :=
  (run.dropWhile fun glyph => !glyph.isBreak).any fun glyph =>
    glyph.character == '\t' && glyph.column < margin

/-- Reads words from here on, `run` being the blanks and breaks in front. -/
def readWords? (inFlow : Bool) (margin : Nat) (run glyphs : List Glyph) : Option PlainText :=
  let ended : PlainText := { text := [], broken := run.any Glyph.isBreak, rest := glyphs }
  match glyphs with
  | [] => some ended
  | first :: others =>
    if startsDocumentMark (first :: others) || first.character == '#' then some ended
    else if inFlow && startsClash (first :: others) then none
    else if endsWord inFlow (first :: others) then some ended
    else
      let length := wordLength inFlow others
      let word := folded (charactersOf run) ++ first.character :: charactersOf (others.take length)
      let behind := others.drop length
      let spacing := behind.takeWhile Glyph.isSpacing
      let next := behind.dropWhile Glyph.isSpacing
      if inFlow && startsClash behind then none
      else if spacing.isEmpty then some { text := word, broken := false, rest := behind }
      else if hasLooseTab margin spacing then none
      else if !inFlow && next.head?.any (·.column < margin) then
        some { text := word, broken := spacing.any Glyph.isBreak, rest := next }
      else
        (readWords? inFlow margin spacing next).map fun found =>
          { found with text := word ++ found.text }
termination_by glyphs.length
decreasing_by
  have remainder :=
    Text.length_dropWhile_le Glyph.isSpacing (others.drop (wordLength inFlow others))
  simp only [List.length_drop, List.length_cons] at *
  omega

def readPlain? (inFlow : Bool) (margin : Nat) (glyphs : List Glyph) : Option PlainText :=
  readWords? inFlow margin [] glyphs

end Sequencer.Yaml
