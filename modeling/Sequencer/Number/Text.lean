import Sequencer.Number.Decimal

/-!
# Writing numbers

A double is written in two ways: with the fewest digits that read back to it, never with an
exponent, and with a fixed number of places after the point. Both start from its exact value.
-/

namespace Sequencer.Number

/-! ## Digits and places -/

def digits (value : Nat) : List Char := Nat.toDigits 10 value

/-- A coefficient with `places` of its digits after the point, at least one digit before it. -/
def placed (coefficient places : Nat) : List Char × List Char :=
  let all := digits coefficient
  let padded := List.replicate (places + 1 - all.length) '0' ++ all
  (padded.take (padded.length - places), padded.drop (padded.length - places))

def withSign (negative : Bool) (text : String) : String := if negative then "-" ++ text else text

/-- The numerator and denominator of `significand * 2 ^ exponent`. -/
def quotient (significand : Nat) (exponent : Int) : Nat × Nat :=
  (significand * Nat.pow 2 exponent.toNat, Nat.pow 2 (-exponent).toNat)

/-! ## Fewest digits -/

/-- Which of two equally near decimals is taken. -/
inductive Tie where
  | up
  | even
  deriving DecidableEq, Repr

/-- Whether a decimal halfway between `below` and its successor goes down. -/
def Tie.goesDown : Tie → Nat → Bool
  | .up, _ => false
  | .even, below => below % 2 == 0

/-- The two multiples of `10 ^ exponent` around a quotient, the nearer one first. -/
def neighbours (tie : Tie) (numerator denominator : Nat) (exponent : Int) : List Nat :=
  let scaled := numerator * Nat.pow 10 (-exponent).toNat
  let unit := denominator * Nat.pow 10 exponent.toNat
  let below := scaled / unit
  let twice := 2 * (scaled % unit)
  if twice < unit || (twice == unit && tie.goesDown below) then [below, below + 1]
  else [below + 1, below]

/-- The exponent `e` with `10 ^ (e - 1) ≤ numerator / denominator < 10 ^ e`, both being positive.
Below one, it is the inverse that has digits to count: it lies above `10 ^ -e` and at most at
`10 ^ (1 - e)`, hence the one taken off. -/
def decimalExponent (numerator denominator : Nat) : Int :=
  if denominator ≤ numerator then digitCount (numerator / denominator)
  else 1 - digitCount ((denominator - 1) / numerator)

/-- Moves one zero from the end of the coefficient into the exponent. -/
def withoutZero (coefficient : Nat) (exponent : Int) : Nat × Int :=
  if coefficient % 10 = 0 then (coefficient / 10, exponent + 1) else (coefficient, exponent)

/-- A multiple of `10 ^ exponent` that reads back to the bits, the nearest such. The upper neighbour
may be the next power of ten, which has a digit more than the others, but the last one is zero. -/
def shortestOf? (tie : Tie) (bits numerator denominator : Nat) (exponent : Int) :
    Option (Nat × Int) :=
  ((neighbours tie numerator denominator exponent).find? fun coefficient =>
      nearestDecimalBits coefficient exponent == bits).map
    (withoutZero · exponent)

/-- Every finite double is a finite decimal: a negative power of two is one of ten times a power of
five. -/
def exactDecimal (significand : Nat) (exponent : Int) : Nat × Int :=
  (significand * Nat.pow 2 exponent.toNat * Nat.pow 5 (-exponent).toNat, min exponent 0)

/-- The fewest digits, seventeen at most, that read back to a positive double; among those the
nearest to it. -/
def shortest (tie : Tie) (significand : Nat) (exponent : Int) : Nat × Int :=
  let (numerator, denominator) := quotient significand exponent
  let bits := nearestBits numerator denominator
  let size := decimalExponent numerator denominator
  ((List.range' 1 17).findSome? fun (count : Nat) =>
      shortestOf? tie bits numerator denominator (size - count)).getD
    (exactDecimal significand exponent)

/-- A decimal without an exponent mark: zeros fill up to the point, and no zero ends a fraction. -/
def positional (coefficient : Nat) (exponent : Int) : String :=
  let (whole, fraction) := placed (coefficient * Nat.pow 10 exponent.toNat) (-exponent).toNat
  let kept := (fraction.reverse.dropWhile (· == '0')).reverse
  String.ofList (if kept.isEmpty then whole else whole ++ '.' :: kept)

def magnitudeText (significand : Nat) (exponent : Int) : String :=
  if significand = 0 then "0"
  else
    let (coefficient, power) := shortest .up significand exponent
    positional coefficient power

/-- The fewest digits that read back, without an exponent. -/
def text (value : Float) : String :=
  match shape value with
  | .notANumber => "NaN"
  | .infinite negative => withSign negative "inf"
  | .finite negative significand exponent => withSign negative (magnitudeText significand exponent)

/-! ## Fixed places -/

def fixedMagnitude (places significand : Nat) (exponent : Int) : String :=
  let (numerator, denominator) := quotient significand exponent
  let (whole, fraction) := placed (roundHalfEven (numerator * Nat.pow 10 places) denominator) places
  String.ofList (if places = 0 then whole else whole ++ '.' :: fraction)

/-- The exact value rounded to a number of places, a half to the even neighbour. The sign of a
negative number that rounds to zero stays. -/
def fixed (places : Nat) (value : Float) : String :=
  match shape value with
  | .notANumber => "NaN"
  | .infinite negative => withSign negative "inf"
  | .finite negative significand exponent =>
    withSign negative (fixedMagnitude places significand exponent)

/-- Fixed places with a sign in front of positive numbers too. -/
def signedFixed (places : Nat) (value : Float) : String :=
  match shape value with
  | .notANumber => "NaN"
  | .infinite negative => (if negative then "-" else "+") ++ "inf"
  | .finite negative significand exponent =>
    (if negative then "-" else "+") ++ fixedMagnitude places significand exponent

/-- Fills a text up with spaces on the left. -/
def padStart (width : Nat) (content : String) : String :=
  String.ofList (List.replicate (width - content.length) ' ') ++ content

example : positional 1230 (-2) = "12.3" := by decide +kernel
example : fixedMagnitude 2 1 (-3) = "0.12" := by decide +kernel
example : shortest .up 1 (-25) = (29802322387695313, -24) := by decide +kernel
example : shortest .even 1 (-25) = (29802322387695312, -24) := by decide +kernel

end Sequencer.Number
