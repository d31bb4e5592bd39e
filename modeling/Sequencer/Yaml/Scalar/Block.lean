import Sequencer.Number.Decimal
import Sequencer.Text.Blank
import Sequencer.Yaml.Glyph

/-!
# Block scalars

Behind a bar or an angle bracket, and on the lines below, stands a text that its indentation
delimits. Literal ones keep their line breaks; in folded ones a line feed between two lines that
start at the margin is a space.
-/

namespace Sequencer.Yaml

/-- What becomes of the line breaks at the end: all dropped, one kept, or all kept. -/
inductive Chomp where
  | strip
  | clip
  | keep
  deriving DecidableEq, Repr

/-! ## Headers -/

def Chomp.ofCharacter? : Char → Option Chomp
  | '-' => some .strip
  | '+' => some .keep
  | _ => none

/-- What stands behind the bar: at most one mark of each kind, in any order. -/
structure Header where
  chomp : Option Chomp
  step : Option Nat

def Header.readMark? (header : Header) (character : Char) : Option Header :=
  match Chomp.ofCharacter? character with
  | some chomp => if header.chomp.isNone then some { header with chomp } else none
  | none =>
    if character.isDigit && header.step.isNone then
      some { header with step := some (Number.digitValue character) }
    else none

def Header.isValid (header : Header) : Bool := header.step != some 0

/-- Reads marks as long as there are any. -/
def Header.read (header : Header) : List Glyph → Header × List Glyph
  | [] => (header, [])
  | next :: rest =>
    match header.readMark? next.character with
    | some header => Header.read header rest
    | none => (header, next :: rest)

/-! ## Indentation -/

/-- Whether a column lies left of a margin. A margin that is still unknown lies right of all. -/
def isLeftOf (margin : Option Nat) (column : Nat) : Bool := margin.all (column < ·)

/-- What lies between two lines of a text: the breaks, and the widest indentation met. -/
structure Gap where
  widest : Nat
  breaks : List Char
  rest : List Glyph

/-- Passes over indentation and empty lines. A tab must not indent. -/
def readGap? (margin : Option Nat) (widest : Nat) (glyphs : List Glyph) : Option Gap :=
  match glyphs with
  | [] => some { widest, breaks := [], rest := [] }
  | next :: rest =>
    if next.character == ' ' && isLeftOf margin next.column then
      readGap? margin (max widest (next.column + 1)) rest
    else if next.character == '\t' && isLeftOf margin next.column then none
    else if next.isBreak then
      (readGap? margin widest rest).map fun gap =>
        { gap with breaks := next.character :: gap.breaks }
    else some { widest, breaks := [], rest := next :: rest }

theorem readGap?_length {margin : Option Nat} {widest : Nat} {glyphs : List Glyph} {gap : Gap}
    (read : readGap? margin widest glyphs = some gap) : gap.rest.length ≤ glyphs.length := by
  induction glyphs generalizing widest gap with
  | nil =>
    simp only [readGap?, Option.some.injEq] at read
    subst read
    exact Nat.le_refl _
  | cons next rest inductionHypothesis =>
    simp only [readGap?] at read
    split at read
    · exact Nat.le_succ_of_le (inductionHypothesis read)
    · split at read
      · cases read
      · split at read
        · simp only [Option.map_eq_some_iff] at read
          obtain ⟨_, innerRead, rfl⟩ := read
          have bound := inductionHypothesis innerRead
          exact Nat.le_succ_of_le bound
        · simp only [Option.some.injEq] at read
          subst read
          exact Nat.le_refl _

/-! ## Lines -/

/-- Lines that have been read, and the breaks behind the last of them. -/
structure BlockText where
  text : List Char
  lastBreak : List Char
  breaks : List Char
  rest : List Glyph

/-- The breaks between two lines as they count in the text. -/
def joined (fold : Bool) (lastBreak breaks : List Char) : List Char :=
  if fold && lastBreak == ['\n'] then if breaks.isEmpty then [' '] else breaks
  else lastBreak ++ breaks

/-- Reads the lines that start at the margin. Folding leaves breaks alone where one of the two lines
starts with a blank. -/
def readLines? (folds : Bool) (margin : Nat) (afterGap : Bool) (lastBreak breaks : List Char)
    (glyphs : List Glyph) : Option BlockText :=
  match glyphs with
  | [] => some { text := [], lastBreak, breaks, rest := [] }
  | first :: others =>
    if first.column != margin then
      some { text := [], lastBreak, breaks, rest := first :: others }
    else
      let line := first.character :: charactersOf (others.takeWhile fun glyph => !glyph.isBreak)
      let behind := others.dropWhile fun glyph => !glyph.isBreak
      match _gap : readGap? (some margin) 0 (behind.drop 1) with
      | none => none
      | some gap =>
        (readLines? folds margin first.isGap (charactersOf (behind.take 1)) gap.breaks
            gap.rest).map fun found =>
          let before := joined (folds && !afterGap && !first.isGap) lastBreak breaks
          { found with text := before ++ line ++ found.text }
termination_by glyphs.length
decreasing_by
  have shorter := readGap?_length _gap
  have remainder : behind.length ≤ others.length := Text.length_dropWhile_le _ others
  simp only [List.length_drop, List.length_cons] at *
  omega

def Chomp.ending (lastBreak breaks : List Char) : Chomp → List Char
  | .strip => []
  | .clip => lastBreak
  | .keep => lastBreak ++ breaks

/-- The text behind a bar. Its column lies a step of the header's right of the collection around it,
which starts in `margin - 1`. Without a step it is the one where the first line starts, or the widest
empty line before, if that lies at the margin at least. -/
def readBlock? (folds : Bool) (margin : Nat) (glyphs : List Glyph) :
    Option (List Char × List Glyph) := do
  let (header, behind) := Header.read { chomp := none, step := none } glyphs
  if !header.isValid then none
  else
    let below ← nextLine? behind
    let start ← readGap? (header.step.map (margin - 1 + ·)) 0 below
    let column := match header.step with
      | some step => margin - 1 + step
      | none => max start.widest (max margin 1)
    let found ← readLines? folds column false [] start.breaks start.rest
    some (found.text ++ (header.chomp.getD .clip).ending found.lastBreak found.breaks, found.rest)

end Sequencer.Yaml
