import Sequencer.Number.Base
import Sequencer.Text.Blank
import Sequencer.Yaml.Glyph

/-!
# Quoted scalars

Between single quotes a quote is written twice; between double quotes a backslash starts an escape.
Line breaks fold as in plain scalars.
-/

namespace Sequencer.Yaml

inductive Quote where
  | single
  | double
  deriving DecidableEq, Repr

def Quote.character : Quote → Char
  | .single => '\''
  | .double => '"'

/-! ## Escapes -/

/-- What a letter behind a backslash stands for. -/
def escapeValue? : Char → Option Char
  | '0' => some '\x00'
  | 'a' => some '\x07'
  | 'b' => some '\x08'
  | 't' | '\t' => some '\t'
  | 'n' => some '\n'
  | 'v' => some '\x0b'
  | 'f' => some '\x0c'
  | 'r' => some '\r'
  | 'e' => some '\x1b'
  | ' ' => some ' '
  | '"' => some '"'
  | '/' => some '/'
  | '\\' => some '\\'
  | 'N' => some '\x85'
  | '_' => some '\xa0'
  | 'L' => some '\u2028'
  | 'P' => some '\u2029'
  | _ => none

/-- How many digits give the code of a character behind a letter. -/
def codeWidth? : Char → Option Nat
  | 'x' => some 2
  | 'u' => some 4
  | 'U' => some 8
  | _ => none

def characterOfCode? (digits : List Char) : Option Char :=
  (Number.readBase? 16 digits).bind fun code =>
    if code.isValidChar then some (Char.ofNat code) else none

/-- The character that an escape stands for, and how many digits follow its letter. -/
def readEscape? (letter : Char) (following : List Glyph) : Option (Char × Nat) :=
  match codeWidth? letter with
  | some width =>
    let digits := charactersOf (following.take width)
    if digits.length < width then none else (characterOfCode? digits).map (·, width)
  | none => (escapeValue? letter).map (·, 0)

/-! ## Texts -/

/-- The text up to the closing quote, and what follows it. A mark between documents must not stand
in it. An escaped line break joins two lines, and only the breaks behind it count. -/
def readQuoted? (quote : Quote) (glyphs : List Glyph) : Option (List Char × List Glyph) :=
  match glyphs with
  | [] => none
  | first :: rest =>
    if startsDocumentMark (first :: rest) then none
    else if first.isSpacing then
      let run := charactersOf (first :: rest.takeWhile Glyph.isSpacing)
      (readQuoted? quote (rest.dropWhile Glyph.isSpacing)).map fun (text, after) =>
        (folded run ++ text, after)
    else if first.character == quote.character then
      match quote, rest with
      | .single, second :: others =>
        if second.character == '\'' then
          (readQuoted? quote others).map fun (text, after) => ('\'' :: text, after)
        else some ([], rest)
      | _, _ => some ([], rest)
    else if quote == .double && first.character == '\\' then
      match rest with
      | [] => none
      | letter :: others =>
        if letter.isBreak then
          let run := charactersOf (others.takeWhile Glyph.isSpacing)
          (readQuoted? quote (others.dropWhile Glyph.isSpacing)).map fun (text, after) =>
            (run.filter isBreak ++ text, after)
        else
          match readEscape? letter.character others with
          | none => none
          | some (character, width) =>
            (readQuoted? quote (others.drop width)).map fun (text, after) =>
              (character :: text, after)
    else (readQuoted? quote rest).map fun (text, after) => (first.character :: text, after)
termination_by glyphs.length
decreasing_by
  · have remainder := Text.length_dropWhile_le Glyph.isSpacing rest
    simp only [List.length_cons]
    omega
  · simp only [List.length_cons]
    omega
  · have remainder := Text.length_dropWhile_le Glyph.isSpacing others
    simp only [List.length_cons]
    omega
  · simp only [List.length_drop, List.length_cons]
    omega
  · simp only [List.length_cons]
    omega

end Sequencer.Yaml
