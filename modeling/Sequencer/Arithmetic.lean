/-!
# Arithmetic

Times, volumes and frequencies are computed in any type with these operations. Doubles are what a
program runs with; the operations say nothing about rounding, so that exact numbers serve as well.
-/

namespace Sequencer

class Arithmetic (α : Type) extends Zero α, One α, Add α, Sub α, Mul α, Div α, LT α, LE α where
  decideLT : DecidableLT α
  decideLE : DecidableLE α
  /-- What a double of the score or the settings stands for. -/
  ofDouble : Float → α
  isFinite : α → Bool
  /-- The whole part of a number that is not negative, at most `2 ^ 64 - 1`. -/
  wholePart : α → Nat

namespace Arithmetic

variable {α : Type} [Arithmetic α]

instance instDecidableLT : DecidableLT α := decideLT

instance instDecidableLE : DecidableLE α := decideLE

/-- The larger of two numbers. What is no number, being not even at most itself, never counts. -/
def larger (left right : α) : α :=
  if left < right then right else if left ≤ left then left else right

/-- The nearest number between two bounds. What is no number stays as it is. -/
def clamp (least greatest value : α) : α :=
  if value < least then least else if greatest < value then greatest else value

instance instFloat : Arithmetic Float where
  zero := 0
  one := 1
  decideLT := inferInstance
  decideLE := inferInstance
  ofDouble := id
  isFinite := Float.isFinite
  wholePart := fun value => value.toUInt64.toNat

end Arithmetic

end Sequencer
