/-!
# Digits of a base

Whole numbers written in a base of up to sixteen.
-/

namespace Sequencer.Number

def hexValue? (digit : Char) : Option Nat :=
  if digit.isDigit then some (digit.toNat - '0'.toNat)
  else if 'a' ≤ digit ∧ digit ≤ 'f' then some (digit.toNat - 'a'.toNat + 10)
  else if 'A' ≤ digit ∧ digit ≤ 'F' then some (digit.toNat - 'A'.toNat + 10)
  else none

/-- A row of digits in a base, at least one. -/
def readBase? (base : Nat) (digits : List Char) : Option Nat :=
  if digits.isEmpty then none
  else digits.foldlM (fun value digit =>
    (hexValue? digit).bind fun unit => if unit < base then some (base * value + unit) else none) 0

example : readBase? 16 "1F".toList = some 31 ∧ readBase? 2 "12".toList = none := by decide +kernel

end Sequencer.Number
