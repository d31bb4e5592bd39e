import Mathlib.Algebra.Order.Floor.Ring
import Mathlib.Data.Rat.Floor
import Sequencer.Arithmetic
import Sequencer.Number.Double

/-! # Exact arithmetic

Fractions as an arithmetic without rounding. A double stands for the number that it is, and one that
is no number or infinite stands for zero.
-/

namespace Sequencer

namespace Number

/-- The number that a double is. -/
def exact (value : Float) : ℚ :=
  match shape value with
  | .finite negative significand exponent =>
    (if negative then -1 else 1) * significand * 2 ^ exponent
  | .infinite _ | .notANumber => 0

end Number

instance Arithmetic.instRat : Arithmetic ℚ where
  decideLT := inferInstance
  decideLE := inferInstance
  ofDouble := Number.exact
  isFinite := fun _ => true
  wholePart := fun value => min value.floor.toNat (2 ^ 64 - 1)

end Sequencer
