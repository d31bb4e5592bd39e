import Sequencer.Number.Text

/-!
# Values

A numeric argument stays as it is written until its command is performed: a literal keeps its token,
since a variable may be named like a number.
-/

namespace Sequencer

inductive Value where
  | number (value : Float) (token : String)
  | named (name : String)

namespace Value

def ofToken (token : String) : Value :=
  match Number.readLiteral? token with
  | some value => .number value token
  | none => .named token

/-- A number that the score does not write, with the token it would have there. -/
def literal (value : Float) : Value := .number value (Number.text value)

def token : Value → String
  | .number _ token => token
  | .named name => name

/-- Numbers are compared as numbers: not-a-number differs from itself. -/
def same : Value → Value → Bool
  | .number left leftToken, .number right rightToken => left == right && leftToken == rightToken
  | .named left, .named right => left == right
  | _, _ => false

end Value

end Sequencer
