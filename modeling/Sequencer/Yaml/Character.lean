/-!
# Characters of a YAML text

Which characters a text may hold, where its lines end, and which ones a name is made of.
-/

namespace Sequencer.Yaml

/-- A space or a tab. -/
def isGap (character : Char) : Bool := character == ' ' || character == '\t'

/-- Line breaks: the line feed, the carriage return, and the next-line, line and paragraph
separators. -/
def isBreak (character : Char) : Bool :=
  [0x0A, 0x0D, 0x85, 0x2028, 0x2029].contains character.toNat

def isSpacing (character : Char) : Bool := isGap character || isBreak character

/-- Control characters other than tabs and line breaks have no place in a text, and no more have
the two noncharacters at the end of the basic plane. -/
def isAllowed (character : Char) : Bool :=
  let code := character.toNat
  code == 0x09 || code == 0x0A || code == 0x0D || (0x20 ≤ code && code ≤ 0x7E) || code == 0x85 ||
    (0xA0 ≤ code && code != 0xFFFE && code != 0xFFFF)

/-- Line feeds, carriage returns, both together and next-line characters all end a line in the same
way; the two separators stay what they are. -/
def unifyBreaks : List Char → List Char
  | '\r' :: '\n' :: rest => '\n' :: unifyBreaks rest
  | '\r' :: rest => '\n' :: unifyBreaks rest
  | '\x85' :: rest => '\n' :: unifyBreaks rest
  | character :: rest => character :: unifyBreaks rest
  | [] => []

def isOrderMark (character : Char) : Bool := character == '\ufeff'

/-- Characters of an anchor, a tag handle or a directive's name. -/
def isNameCharacter (character : Char) : Bool :=
  character.isAlphanum || character == '_' || character == '-'

/-- Brackets and commas, which separate the items of a flow collection. -/
def isFlowIndicator (character : Char) : Bool := ",[]\x7b\x7d".toList.contains character

/-- What a run of blanks and breaks within a scalar stands for: itself where it holds no break, else
its breaks but for a first line feed, which is a space where no other break follows. -/
def folded (run : List Char) : List Char :=
  match run.filter isBreak with
  | [] => run
  | ['\n'] => [' ']
  | '\n' :: others => others
  | breaks => breaks

example : unifyBreaks "a\r\nb\rc".toList = "a\nb\nc".toList := by decide
example : folded " \t".toList = " \t".toList ∧ folded " \n ".toList = [' '] := by decide
example : folded "\n \n\n".toList = "\n\n".toList := by decide

end Sequencer.Yaml
