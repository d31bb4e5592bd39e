import Sequencer.Number.Base
import Sequencer.Number.Text
import Sequencer.Yaml.Scalar.Basic

/-!
# What scalars stand for

The forms of plain scalars that count as numbers, truth values or nothing at all. They are the same
in reading and in writing.
-/

namespace Sequencer.Yaml

/-! ## Whole numbers -/

def hasSign : List Char → Bool
  | '+' :: _ | '-' :: _ => true
  | _ => false

def withoutPlus : List Char → List Char
  | '+' :: rest => rest
  | text => text

/-- Digits after a leading zero are a text and not a number. -/
def isZeroPadded (text : List Char) : Bool :=
  match (Number.splitSign text).2 with
  | '0' :: next :: rest => (next :: rest).all Char.isDigit
  | _ => false

/-- A whole number without its sign, in base two, eight, ten or sixteen. -/
def readMagnitude? : List Char → Option Nat
  | '0' :: 'x' :: rest => Number.readBase? 16 rest
  | '0' :: 'o' :: rest => Number.readBase? 8 rest
  | '0' :: 'b' :: rest => Number.readBase? 2 rest
  | text => if isZeroPadded text then none else Number.readBase? 10 text

def wordLimit : Nat := 0x10000000000000000

/-- A whole number within a machine word. -/
def readWord? (text : String) : Option Nat :=
  (readMagnitude? (withoutPlus text.toList)).filter (· < wordLimit)

/-- The least magnitude that is no whole number for being too large. -/
def integerLimit : Nat := wordLimit * wordLimit

/-- Whether a text is a whole number within two machine words. -/
def isInteger (text : List Char) : Bool :=
  match text with
  | '-' :: rest => (readMagnitude? rest).any (· ≤ integerLimit / 2)
  | _ => (readMagnitude? (withoutPlus text)).any (· < integerLimit)

/-! ## Doubles -/

def infinityWords : List String := [".inf", ".Inf", ".INF"]

def notANumberWords : List String := [".nan", ".NaN", ".NAN"]

/-- A double: one of the words for infinity and not-a-number, or a decimal within range. -/
def readDouble? (text : String) : Option Float :=
  let magnitude := withoutPlus text.toList
  if text.toList.head? == some '+' && hasSign magnitude then none
  else if infinityWords.contains (String.ofList magnitude) then some (Number.infinity false)
  else if (infinityWords.map ("-" ++ ·)).contains text then some (Number.infinity true)
  else if notANumberWords.contains text then some Number.notANumber
  else Number.readLiteral? (String.ofList magnitude)

/-! ## Words -/

def nullWords : List String := ["", "~", "null", "Null", "NULL"]

def truthWords : List String := ["true", "True", "TRUE", "false", "False", "FALSE"]

/-- Whether a plain scalar with this text would be read as something else than a text. -/
def isAmbiguous (text : String) : Bool :=
  nullWords.contains text || truthWords.contains text || isInteger text.toList ||
    isZeroPadded text.toList || (readDouble? text).isSome

/-! ## Typed scalars -/

namespace Scalar

def integerTag : String := "tag:yaml.org,2002:int"

def doubleTag : String := "tag:yaml.org,2002:float"

/-- Numbers are plain scalars, or literal ones with the tag of their type. -/
def isTyped (tag : String) (scalar : Scalar) : Bool :=
  match scalar.style with
  | .plain => true
  | .literal => scalar.tag == some tag
  | .quoted | .folded => false

def word? (scalar : Scalar) : Option Nat :=
  if scalar.isTyped integerTag then readWord? scalar.text else none

def double? (scalar : Scalar) : Option Float :=
  if scalar.isTyped doubleTag then readDouble? scalar.text else none

def isNull (scalar : Scalar) : Bool := scalar.style == .plain && nullWords.contains scalar.text

/-- The choice among named alternatives: a local tag with nothing behind it, or the text. -/
def choice? (scalar : Scalar) : Option String :=
  match scalar.tag.map String.toList with
  | some ('!' :: name) => if scalar.isNull then some (String.ofList name) else none
  | _ => some scalar.text

end Scalar

end Sequencer.Yaml
