/-!
# Double precision numbers

A double is taken apart into sign, significand and exponent, and a quotient of natural numbers is
rounded to the nearest double. Decimal reading and writing go through these two, in exact
arithmetic.
-/

namespace Sequencer.Number

/-- What a double stands for. A finite one is `± significand * 2 ^ exponent`. -/
inductive Shape where
  | notANumber
  | infinite (negative : Bool)
  | finite (negative : Bool) (significand : Nat) (exponent : Int)
  deriving DecidableEq, Repr

/-- The exponent of the finest grid on which doubles lie. -/
def leastExponent : Int := -1074

/-- The bits of positive infinity: every finite double has smaller ones, sign apart. -/
def infinityBits : Nat := 0x7FF0000000000000

def signBit : Nat := 0x8000000000000000

/-- The bit that a significand starts with, but for the smallest numbers. It is not stored. -/
def leadingBit : Nat := 0x10000000000000

/-- Bits sixty-three, sixty-two to fifty-two, and the rest are sign, exponent and fraction. -/
def shapeOfBits (bits : Nat) : Shape :=
  let negative : Bool := signBit ≤ bits
  let field : Nat := bits / leadingBit % 2048
  let fraction := bits % leadingBit
  if field = 0 then .finite negative fraction leastExponent
  else if field < 2047 then .finite negative (fraction + leadingBit) (leastExponent + field - 1)
  else if fraction = 0 then .infinite negative
  else .notANumber

def shape (value : Float) : Shape := shapeOfBits value.toBits.toNat

/-- The nearest integer to a quotient. A half goes to the even neighbour. -/
def roundHalfEven (numerator denominator : Nat) : Nat :=
  let quotient := numerator / denominator
  let twice := 2 * (numerator % denominator)
  if twice < denominator ∨ (twice = denominator ∧ quotient % 2 = 0) then quotient else quotient + 1

/-- The exponent `e` with `2 ^ e ≤ numerator / denominator < 2 ^ (e + 1)`, both being positive. -/
def binaryExponent (numerator denominator : Nat) : Int :=
  let estimate : Int := numerator.log2 - denominator.log2
  if numerator * Nat.pow 2 (-estimate).toNat < denominator * Nat.pow 2 estimate.toNat then
    estimate - 1
  else estimate

/-- The bits of the double nearest to a quotient, ties going to the even significand. Counting the
significand up from the leading bit carries into the exponent field, so that one sum serves all
sizes. -/
def nearestBits (numerator denominator : Nat) : Nat :=
  if numerator = 0 then 0
  else
    let exponent := max (binaryExponent numerator denominator - 52) leastExponent
    let significand :=
      roundHalfEven (numerator * Nat.pow 2 (-exponent).toNat)
        (denominator * Nat.pow 2 exponent.toNat)
    min (significand + (exponent - leastExponent).toNat * leadingBit) infinityBits

/-- The bits of the double nearest to an integer times a power of ten. -/
def nearestDecimalBits (coefficient : Nat) (exponent : Int) : Nat :=
  nearestBits (coefficient * Nat.pow 10 exponent.toNat) (Nat.pow 10 (-exponent).toNat)

/-- The double with these bits and a sign. -/
def signed (negative : Bool) (bits : Nat) : Float :=
  Float.ofBits (bits + if negative then signBit else 0).toUInt64

def infinity (negative : Bool) : Float := signed negative infinityBits

def notANumber : Float := Float.ofBits 0x7FF8000000000000

example : nearestBits 1 1 = 0x3FF0000000000000 := by decide +kernel
example : shapeOfBits 0x3FF0000000000000 = .finite false leadingBit (-52) := by decide +kernel

end Sequencer.Number
