import Sequencer.Program.Basic

/-!
# Rows

A line without its comment is a row: an opening or an end marker, or a command. A bracket makes a
marker if it closes and one word stands within; the word `end` ends what is open.
-/

namespace Sequencer

inductive Row where
  | opening (kind : Kind) (name : String) (effects : List Char)
  | ending (kind : Kind)
  | command (text : List Char)

namespace Kind

def opener : Kind → Char
  | .block => '['
  | .customSample => '<'

def closer : Kind → Char
  | .block => ']'
  | .customSample => '>'

def ofOpener? : Char → Option Kind
  | '[' => some .block
  | '<' => some .customSample
  | _ => none

end Kind

namespace Row

def endWord : List Char := ['e', 'n', 'd']

/-- What stands between the brackets of a kind, blanks around it left out, and what comes after. -/
def bracketed? (kind : Kind) (text : List Char) : Option (List Char × List Char) :=
  match text.dropWhile (· != kind.closer) with
  | [] => none
  | _ :: rest => some (Text.trim (text.takeWhile (· != kind.closer)), Text.trim rest)

/-- The marker that a trimmed line is, if it is one. -/
def marker? : List Char → Option Row
  | [] => none
  | first :: text => do
    let kind ← Kind.ofOpener? first
    let (name, rest) ← bracketed? kind text
    if name.isEmpty || name.any Text.isBlank then none
    else if name == endWord then some (.ending kind)
    else some (.opening kind (String.ofList name) rest)

/-- The row that a line is, if anything stands on it. -/
def ofLine? (line : List Char) : Option Row :=
  match Text.trim (Text.withoutComment line) with
  | [] => none
  | text => some ((marker? text).getD (.command text))

end Row

end Sequencer
