import Sequencer.Command.Arguments
import Sequencer.Text.Blank

/-!
# Headers

After its bracket a header may carry effects in parentheses. All parameters are literals. The first
text that is no effect spoils the whole header.
-/

namespace Sequencer.Header

def parameter? (word : String) : Option (Parameter Float) :=
  match splitKey word with
  | some (key, value) => (Number.readLiteral? value).map fun value => { key := some key, value }
  | none => (Number.readLiteral? word).map fun value => { key := none, value }

/-- The first word is the kind of the effect. -/
def effect? (inner : List Char) : Option (Effect Float) :=
  match (Text.words inner).map String.ofList with
  | [] => none
  | kind :: words => (words.mapM parameter?).map fun parameters => { kind, parameters }

def isClosing (character : Char) : Bool := character == ')'

/-- Reads the effects of a header, or gives back the text that is none. -/
def read (text : List Char) : Except String (List (Effect Float)) :=
  match _start : Text.trimStart text with
  | [] => .ok []
  | '(' :: body =>
    match _inside : body.dropWhile (!isClosing ·) with
    | [] => .error (String.ofList ('(' :: body))
    | _ :: rest =>
      let inner := body.takeWhile (!isClosing ·)
      match effect? inner with
      | none => .error (String.ofList ('(' :: inner ++ [')']))
      | some effect => (read rest).map (effect :: ·)
  | other => .error (String.ofList other)
termination_by text.length
decreasing_by
  have shorter := Text.length_dropWhile_le Text.isBlank text
  have remainder := Text.length_dropWhile_le (!isClosing ·) body
  simp only [Text.trimStart] at _start
  simp only [_start, _inside, List.length_cons] at shorter remainder
  omega

end Sequencer.Header
