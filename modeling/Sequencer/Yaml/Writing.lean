import Sequencer.Yaml.Character
import Sequencer.Yaml.Scalar.Meaning

/-!
# Writing YAML

Numbers always carry a point or an exponent. A text is written plain where nothing in it could be
taken for structure or for another kind of scalar, else between quotes. Line feeds make it a literal
block, and characters that no other style can keep are escaped between double quotes.
-/

namespace Sequencer.Yaml

/-! ## Numbers -/

/-- A decimal with a point: positional from `10 ^ -5` up to `10 ^ 16`, with an exponent beyond. -/
def decimalText (coefficient : Nat) (exponent : Int) : String :=
  let all := Number.digits coefficient
  let position := (all.length : Int) + exponent
  if 0 ≤ exponent ∧ position ≤ 16 then
    String.ofList (all ++ List.replicate exponent.toNat '0' ++ ".0".toList)
  else if -5 < position ∧ position ≤ 16 then Number.positional coefficient exponent
  else
    let fraction := all.drop 1
    let mantissa := all.take 1 ++ if fraction.isEmpty then [] else '.' :: fraction
    String.ofList mantissa ++ "e" ++ toString (position - 1)

def number (value : Float) : String :=
  match Number.shape value with
  | .notANumber => ".nan"
  | .infinite negative => Number.withSign negative ".inf"
  | .finite negative significand exponent =>
    Number.withSign negative <|
      if significand = 0 then "0.0"
      else
        let (coefficient, power) := Number.shortest .even significand exponent
        decimalText coefficient power

/-! ## Texts -/

/-- Characters that may stand in a text as they are. -/
def isPrintable (character : Char) : Bool :=
  let code := character.toNat
  code == 0x0A || (0x20 ≤ code && code ≤ 0x7E) ||
    (0xA0 ≤ code && code != 0xFEFF && code != 0xFFFE && code != 0xFFFF)

/-- Whether a blank, a break or the end of the text is next. -/
def isAtEnd (text : List Char) : Bool := text.head?.all isSpacing

/-- Characters that mean structure at the start of a plain scalar. -/
def isIndicator (character : Char) : Bool := "#,[]\x7b\x7d&*!|>'\"%@`".toList.contains character

def startsStructure : List Char → Bool
  | [] => false
  | first :: rest =>
    isIndicator first || ((first == '-' || first == '?' || first == ':') && isAtEnd rest)

/-- Whether a colon before a blank or a number sign after one stands behind the first character. -/
def holdsStructure (afterBlank : Bool) : List Char → Bool
  | [] => false
  | character :: rest =>
    (character == ':' && isAtEnd rest) || (character == '#' && afterBlank) ||
      holdsStructure (isSpacing character) rest

def isDocumentMark (text : List Char) : Bool :=
  text.take 3 == "---".toList || text.take 3 == "...".toList

/-- Whether a text may stand without quotes as far as its characters go. -/
def isPlain (text : List Char) : Bool :=
  match text with
  | [] => false
  | first :: rest =>
    !startsStructure text && !holdsStructure (isSpacing first) rest && !isDocumentMark text &&
      first != ' ' && text.getLast? != some ' ' && !text.any isBreak

/-- Whether a character of one kind stands before one of another. -/
def hasPair (isFirst isSecond : Char → Bool) (text : List Char) : Bool :=
  (text.zip (text.drop 1)).any fun (first, second) => isFirst first && isSecond second

/-- Whether nothing but escapes can keep all characters of a text. -/
def needsEscapes (text : List Char) : Bool :=
  !text.all isPrintable || hasPair (· == ' ') isBreak text

/-! ## Styles -/

def hexDigits (width value : Nat) : List Char :=
  let all := (Nat.toDigits 16 value).map Char.toUpper
  List.replicate (width - all.length) '0' ++ all

/-- The characters with an escape of one letter. -/
def escapeLetters : List (Nat × Char) :=
  [(0x00, '0'), (0x07, 'a'), (0x08, 'b'), (0x09, 't'), (0x0A, 'n'), (0x0B, 'v'), (0x0C, 'f'),
   (0x0D, 'r'), (0x1B, 'e'), (0x22, '"'), (0x5C, '\\'), (0x85, 'N'), (0xA0, '_'), (0x2028, 'L'),
   (0x2029, 'P')]

def escaped (character : Char) : List Char :=
  let code := character.toNat
  match escapeLetters.lookup code with
  | some letter => ['\\', letter]
  | none =>
    if code ≤ 0xFF then '\\' :: 'x' :: hexDigits 2 code
    else if code ≤ 0xFFFF then '\\' :: 'u' :: hexDigits 4 code
    else '\\' :: 'U' :: hexDigits 8 code

def needsEscape (character : Char) : Bool :=
  !isPrintable character || isBreak character || character == '"' || character == '\\'

def doubleQuoted (text : List Char) : List Char :=
  '"' :: text.flatMap (fun character =>
    if needsEscape character then escaped character else [character]) ++ ['"']

/-- Indents every line that starts with something else than its break, the first one too if nothing
stands before it. -/
def indented (indent : Nat) (startsLine : Bool) : List Char → List Char
  | [] => []
  | character :: rest =>
    if isBreak character then character :: indented indent true rest
    else (if startsLine then List.replicate indent ' ' else []) ++
      character :: indented indent false rest

/-- The closing quote is indented where it stands behind a break. -/
def singleQuoted (indent : Nat) (text : List Char) : List Char :=
  '\'' :: indented indent false
    (text.flatMap (fun character => if character == '\'' then ['\'', '\''] else [character]) ++
      ['\''])

/-- The marks behind the bar of a literal block: whether its first row needs an explicit indent, and
what becomes of line breaks at its end. -/
def literalMarks (text : List Char) : List Char :=
  let startsLoose := text.head?.any fun first => first == ' ' || isBreak first
  (if startsLoose then ['2'] else []) ++
    match text.reverse with
    | [] => ['-']
    | last :: before =>
      if !isBreak last then ['-'] else if before.head?.all isBreak then ['+'] else []

def literalBlock (indent : Nat) (text : List Char) : List Char :=
  '|' :: literalMarks text ++ '\n' :: indented indent true text

/-- A text as a value, its further lines being indented. -/
def scalar (indent : Nat) (content : String) : String :=
  let characters := content.toList
  String.ofList <|
    if needsEscapes characters then doubleQuoted characters
    else if characters.contains '\n' then
      if characters.getLast? == some ' ' then doubleQuoted characters
      else literalBlock indent characters
    else if isPlain characters && !isAmbiguous content then characters
    else if hasPair isBreak (· == ' ') characters then doubleQuoted characters
    else singleQuoted indent characters

example : scalar 2 "kick" = "kick" ∧ scalar 2 "5" = "'5'" ∧ scalar 2 "" = "''" := by decide +kernel
example : scalar 2 "line 1: it's" = "'line 1: it''s'" := by decide +kernel
example : scalar 2 "a\nb\n" = "|\n  a\n  b\n" := by decide +kernel

/-! ## Lines -/

def spaces (indent : Nat) : String := String.ofList (List.replicate indent ' ')

def entry (indent : Nat) (key value : String) : String := spaces indent ++ key ++ ": " ++ value

/-- A line with its end. Behind a line break that a scalar ends with, the next line starts at
once. -/
def endLine (line : String) : String :=
  if line.toList.getLast?.any isBreak then line else line ++ "\n"

def joinLines (lines : List String) : String := String.join (lines.map endLine)

end Sequencer.Yaml
