import Sequencer.Number.Double

/-!
# Reading decimal numbers

The grammar of a decimal literal is an optional sign, digits with at most one point among or around
them, and an optional exponent. A literal stands for the nearest double; one too large for a finite
double is not a number.
-/

namespace Sequencer.Number

/-- The rational `± coefficient * 10 ^ exponent`. -/
structure Decimal where
  negative : Bool
  coefficient : Nat
  exponent : Int
  deriving DecidableEq, Repr

def digitValue (digit : Char) : Nat := digit.toNat - '0'.toNat

/-- The number written by a row of digits, most significant first. -/
def ofDigits (digits : List Char) : Nat :=
  digits.foldl (fun value digit => 10 * value + digitValue digit) 0

/-- Takes an optional sign off the front. -/
def splitSign : List Char → Bool × List Char
  | '-' :: rest => (true, rest)
  | '+' :: rest => (false, rest)
  | text => (false, text)

/-- Takes the longest run of digits off the front. -/
def splitDigits (text : List Char) : List Char × List Char := text.span Char.isDigit

/-- The exponent at the end of a literal: nothing, or a mark, an optional sign and some digits. -/
def readExponent? : List Char → Option Int
  | [] => some 0
  | mark :: rest =>
    let (negative, digits) := splitSign rest
    if (mark == 'e' || mark == 'E') && !digits.isEmpty && digits.all Char.isDigit then
      some (if negative then -(ofDigits digits : Int) else ofDigits digits)
    else none

/-- The digits after the point, if there is a point, and what follows them. -/
def splitFraction : List Char → List Char × List Char
  | '.' :: rest => splitDigits rest
  | text => ([], text)

def Decimal.read? (text : List Char) : Option Decimal :=
  let (negative, magnitude) := splitSign text
  let (whole, afterWhole) := splitDigits magnitude
  let (fraction, afterFraction) := splitFraction afterWhole
  if whole.isEmpty && fraction.isEmpty then none
  else (readExponent? afterFraction).map fun exponent =>
    { negative
      coefficient := ofDigits (whole ++ fraction)
      exponent := exponent - fraction.length }

/-- How many digits a number has, none for zero. -/
def digitCount (value : Nat) : Nat := if value = 0 then 0 else (Nat.toDigits 10 value).length

/-- Beyond these sizes a decimal is infinity or zero without any arithmetic: the largest double lies
below `10 ^ 309`, and half the smallest above `10 ^ -324`. -/
def Decimal.toDouble (decimal : Decimal) : Float :=
  let size := digitCount decimal.coefficient + decimal.exponent
  if decimal.coefficient = 0 ∨ size < -330 then signed decimal.negative 0
  else if 330 < size then infinity decimal.negative
  else signed decimal.negative (nearestDecimalBits decimal.coefficient decimal.exponent)

/-- A literal of the score: only finite doubles count. -/
def readLiteral? (token : String) : Option Float :=
  ((Decimal.read? token.toList).map Decimal.toDouble).filter Float.isFinite

def lowercase (text : List Char) : List Char := text.map Char.toLower

/-- Any double: a decimal, or one of the words for infinity and for not-a-number. -/
def readDouble? (token : String) : Option Float :=
  let (negative, magnitude) := splitSign token.toList
  let name := String.ofList (lowercase magnitude)
  if name == "inf" || name == "infinity" then some (infinity negative)
  else if name == "nan" then some notANumber
  else (Decimal.read? token.toList).map Decimal.toDouble

/-- A whole number with an optional sign, within sixty-four bits. -/
def readInteger? (token : String) : Option Int :=
  let (negative, digits) := splitSign token.toList
  if digits.isEmpty || !digits.all Char.isDigit then none
  else
    let value : Int := if negative then -(ofDigits digits : Int) else ofDigits digits
    if -0x8000000000000000 ≤ value ∧ value < 0x8000000000000000 then some value else none

example : Decimal.read? "-1.50e3".toList = some ⟨true, 150, 1⟩ := by decide +kernel
example : (["5.", ".5", "+5", "1E5"].all fun text => (Decimal.read? text.toList).isSome) := by
  decide +kernel
example : (["", ".", "1e", "e5", "1_0", "0x1", "inf"].all fun text =>
    (Decimal.read? text.toList).isNone) := by decide +kernel

end Sequencer.Number
