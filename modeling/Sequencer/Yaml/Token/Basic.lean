import Sequencer.Yaml.Scalar.Basic

/-!
# Tokens

The tokens of a YAML text. Those of a block have no characters of their own: they mark where
indentation opens and closes a collection, and where a key starts.
-/

namespace Sequencer.Yaml

inductive Token where
  | version
  | tagHandle (handle expansion : String)
  | documentStart
  | documentEnd
  | sequenceStart
  | mappingStart
  | blockEnd
  | sequenceOpens
  | sequenceCloses
  | mappingOpens
  | mappingCloses
  | item
  | comma
  | key
  | value
  | alias (name : String)
  | anchor (name : String)
  | tag (handle suffix : String)
  | scalar (text : String) (style : Style)
  deriving DecidableEq, Repr

end Sequencer.Yaml
