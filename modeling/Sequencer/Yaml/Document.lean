import Sequencer.Yaml.Node
import Sequencer.Yaml.Token.Reading

/-!
# Documents

A text holds one document, and that a node. Directives may declare the version of the format and the
handles of tags.
-/

namespace Sequencer.Yaml

structure Document where
  /-- An empty text has no node at all. -/
  root : Option Node
  anchors : Anchors

namespace Reader

/-! ## Directives -/

/-- The handles that need no declaration. -/
def standardHandles : List (String × String) := [("!", "!"), ("!!", "tag:yaml.org,2002:")]

/-- The handles that the directives declare, each once, and the version at most once. -/
def directives : List Token → Bool → List (String × String) → Option (List (String × String))
  | .version :: rest, hasVersion, declared =>
    if hasVersion then none else directives rest true declared
  | .tagHandle handle expansion :: rest, hasVersion, declared =>
    if (declared.lookup handle).isSome then none
    else directives rest hasVersion ((handle, expansion) :: declared)
  | _, _, declared => some declared

def isDirective : Token → Bool
  | .version | .tagHandle _ _ => true
  | _ => false

/-! ## Documents -/

/-- What stands behind the mark that starts a document. -/
def content (fuel : Nat) : Reader Node := do
  match ← next? with
  | none | some .version | some (.tagHandle _ _) | some .documentStart | some .documentEnd =>
    return .empty
  | some _ => node fuel .item

/-- A document with directives or with a mark in front. -/
def marked (fuel : Nat) : Reader Node := do
  let left ← get
  match directives left.tokens false [] with
  | none => failure
  | some declared =>
    set { left with
      tokens := left.tokens.dropWhile isDirective
      handles := declared ++ standardHandles }
    expect .documentStart
    content fuel

/-- The node of the document, if the text holds one. -/
def document (fuel : Nat) : Reader (Option Node) := do
  match ← next? with
  | none => return none
  | some .version | some (.tagHandle _ _) | some .documentStart => return some (← marked fuel)
  | some _ => return some (← node fuel .item)

end Reader

/-- Steps that bound the reading of a document: no four of them take no token. -/
def stepLimit (tokens : List Token) : Nat := 4 * tokens.length + 4

/-- Behind the document only marks of its end may follow. -/
def Document.ofTokens? (tokens : List Token) : Option Document :=
  let start : Remaining := { tokens, handles := Reader.standardHandles, anchors := .empty }
  (Reader.document (stepLimit tokens) start).bind fun (root, left) =>
    if left.tokens.all (· == .documentEnd) then some { root, anchors := left.anchors } else none

namespace Document

def read? (text : String) : Option Document :=
  (Token.ofText? text.toList).bind ofTokens?

/-- The scalar that a node is or that it is an alias for. -/
def scalar? (document : Document) : Node → Option Scalar
  | .scalar content => some content
  | .alias number => document.anchors.scalar? number
  | .sequence _ | .mapping _ => none

/-- The entries of a document that is a mapping, each with the text of its key and the scalar that
is its value, if it is one. A document without anything in it is an empty mapping. -/
def entries? (document : Document) : Option (List (String × Option Scalar)) :=
  match document.root with
  | none => some []
  | some (.scalar content) =>
    if content.style == .plain && content.text.isEmpty then some [] else none
  | some (.mapping entries) =>
    entries.mapM fun (key, value) =>
      (document.scalar? key).map fun key => (key.text, document.scalar? value)
  | some _ => none

end Document

end Sequencer.Yaml
