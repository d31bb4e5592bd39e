/-!
# Scalars

A scalar is a text with the style in which it is written. A plain one may stand for a number.
-/

namespace Sequencer.Yaml

inductive Style where
  | plain
  | quoted
  | literal
  | folded
  deriving DecidableEq, Repr

structure Scalar where
  text : String
  style : Style
  tag : Option String
  deriving DecidableEq, Repr

/-- What stands where a node is left out. -/
def Scalar.empty : Scalar := { text := "", style := .plain, tag := none }

end Sequencer.Yaml
