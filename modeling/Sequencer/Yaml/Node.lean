import Sequencer.Yaml.Scalar.Basic
import Sequencer.Yaml.Token.Basic

/-!
# Nodes

The tree that the tokens of a document make up. A node may be left out wherever one can stand, and
is then an empty plain scalar.
-/

namespace Sequencer.Yaml

inductive Node where
  | scalar (content : Scalar)
  | sequence (items : List Node)
  | mapping (entries : List (Node × Node))
  | alias (number : Nat)

def Node.empty : Node := .scalar .empty

/-- What the anchors of a document stand for. An anchor has for its number how many different names
there were before, and a number stands for the node that got it last; no alias to a collection is
ever looked into. -/
structure Anchors where
  numbers : List (String × Nat)
  scalars : List (Nat × Option Scalar)

namespace Anchors

def empty : Anchors := { numbers := [], scalars := [] }

def add (anchors : Anchors) (name : String) (scalar : Option Scalar) : Anchors :=
  let number := anchors.numbers.length
  { numbers := (name, number) :: anchors.numbers.filter (·.1 != name)
    scalars := (number, scalar) :: anchors.scalars }

def number? (anchors : Anchors) (name : String) : Option Nat := anchors.numbers.lookup name

def scalar? (anchors : Anchors) (number : Nat) : Option Scalar :=
  (anchors.scalars.lookup number).join

end Anchors

/-! ## Reading -/

/-- What is left of the tokens, and what has been declared. -/
structure Remaining where
  tokens : List Token
  handles : List (String × String)
  anchors : Anchors

abbrev Reader := StateT Remaining Option

namespace Reader

def next? : Reader (Option Token) := do return (← get).tokens.head?

def skip : Reader Unit := modify fun left => { left with tokens := left.tokens.drop 1 }

def expect (token : Token) : Reader Unit := do
  if (← next?) == some token then skip else failure

/-- Whether one of some tokens is next. -/
def at? (tokens : List Token) : Reader Bool := do
  match ← next? with
  | some token => return tokens.contains token
  | none => return false

/-! ## Properties -/

def anchor? : Reader (Option String) := do
  match ← next? with
  | some (.anchor name) => skip; return some name
  | _ => return none

/-- A handle is what has been declared for it, and an empty one is nothing. -/
def expand (handle suffix : String) : Reader String := do
  if handle.isEmpty then return suffix
  else
    match (← get).handles.lookup handle with
    | some expansion => return expansion ++ suffix
    | none => failure

def tag? : Reader (Option String) := do
  match ← next? with
  | some (.tag handle suffix) => skip; return some (← expand handle suffix)
  | _ => return none

structure Properties where
  anchor : Option String
  tag : Option String

/-- An anchor and a tag in any order. -/
def properties : Reader Properties := do
  match ← anchor? with
  | some name => return { anchor := some name, tag := ← tag? }
  | none =>
    let tag ← tag?
    let anchor ← if tag.isSome then anchor? else pure none
    return { anchor, tag }

def declare (properties : Properties) (scalar : Option Scalar) : Reader Unit :=
  match properties.anchor with
  | some name => modify fun left => { left with anchors := left.anchors.add name scalar }
  | none => pure ()

def scalar (properties : Properties) (content : Scalar) : Reader Node := do
  declare properties (some content)
  return .scalar content

/-! ## Nodes -/

/-- Where a node stands decides which collections it can be. -/
inductive Position where
  | item
  | entry
  | flow
  deriving DecidableEq, Repr

mutual

def node : Nat → Position → Reader Node
  | 0, _ => failure
  | fuel + 1, position => do
    match ← next? with
    | some (.alias name) =>
      skip
      match (← get).anchors.number? name with
      | some number => return .alias number
      | none => failure
    | _ =>
      let given ← properties
      match ← next? with
      | some (.scalar text style) =>
        skip
        scalar given { text, style, tag := given.tag.filter (· != "!") }
      | some .sequenceOpens =>
        skip
        declare given none
        return .sequence (← flowItems fuel true)
      | some .mappingOpens =>
        skip
        declare given none
        return .mapping (← flowEntries fuel true)
      | token =>
        if token == some .item && position == .entry then
          declare given none
          return .sequence (← flatItems fuel)
        else if token == some .sequenceStart && position != .flow then
          skip
          declare given none
          return .sequence (← blockItems fuel)
        else if token == some .mappingStart && position != .flow then
          skip
          declare given none
          return .mapping (← blockEntries fuel)
        else if given.anchor.isSome || given.tag.isSome then
          scalar given { Scalar.empty with tag := given.tag }
        else failure

/-- A node, or an empty one where one of some tokens is next. -/
def nodeUnless : Nat → List Token → Position → Reader Node
  | 0, _, _ => failure
  | fuel + 1, ends, position => do
    if ← at? ends then return .empty else node fuel position

/-- The value of an entry, which a colon starts. -/
def valueUnless : Nat → List Token → Position → Reader Node
  | 0, _, _ => failure
  | fuel + 1, ends, position => do
    if ← at? [.value] then
      skip
      nodeUnless fuel ends position
    else return .empty

/-- The items of a sequence with a margin of its own. -/
def blockItems : Nat → Reader (List Node)
  | 0 => failure
  | fuel + 1 => do
    if ← at? [.blockEnd] then
      skip
      return []
    else
      expect .item
      let first ← nodeUnless fuel [.item, .blockEnd] .item
      return first :: (← blockItems fuel)

/-- The items of a sequence that stands at the margin of its key. -/
def flatItems : Nat → Reader (List Node)
  | 0 => failure
  | fuel + 1 => do
    if ← at? [.item] then
      skip
      let first ← nodeUnless fuel [.item, .key, .value, .blockEnd] .item
      return first :: (← flatItems fuel)
    else return []

def blockEntries : Nat → Reader (List (Node × Node))
  | 0 => failure
  | fuel + 1 => do
    if ← at? [.blockEnd] then
      skip
      return []
    else
      expect .key
      let key ← nodeUnless fuel [.key, .value, .blockEnd] .entry
      let value ← valueUnless fuel [.key, .value, .blockEnd] .entry
      return (key, value) :: (← blockEntries fuel)

/-- The items of a flow sequence. A comma stands before all but the first. -/
def flowItems : Nat → Bool → Reader (List Node)
  | 0, _ => failure
  | fuel + 1, isFirst => do
    if ← at? [.sequenceCloses] then
      skip
      return []
    else
      if !isFirst then expect .comma
      if ← at? [.sequenceCloses] then
        skip
        return []
      else
        let first ← if ← at? [.key] then pair fuel else node fuel .flow
        return first :: (← flowItems fuel false)

/-- A mapping of one entry without braces. A missing key swallows the token that stands for it. -/
def pair : Nat → Reader Node
  | 0 => failure
  | fuel + 1 => do
    skip
    let isMissing ← at? [.value, .comma, .sequenceCloses]
    let key ← if isMissing then do skip; return .empty else node fuel .flow
    let value ← valueUnless fuel [.comma, .sequenceCloses] .flow
    return .mapping [(key, value)]

/-- The entries of a flow mapping. A node without a colon is a key with nothing behind it. -/
def flowEntries : Nat → Bool → Reader (List (Node × Node))
  | 0, _ => failure
  | fuel + 1, isFirst => do
    if ← at? [.mappingCloses] then
      skip
      return []
    else
      if !isFirst then expect .comma
      if ← at? [.mappingCloses] then
        skip
        return []
      else if ← at? [.key] then
        skip
        let key ← nodeUnless fuel [.value, .comma, .mappingCloses] .flow
        let value ← valueUnless fuel [.comma, .mappingCloses] .flow
        return (key, value) :: (← flowEntries fuel false)
      else
        let key ← node fuel .flow
        return (key, .empty) :: (← flowEntries fuel false)

end

end Reader

end Sequencer.Yaml
